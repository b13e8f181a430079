import EnumConverter.Proofs.Build.Accounts
import EnumConverter.Proofs.CommentGroup.Scan
import EnumConverter.Proofs.Lexer.Partition

namespace EnumConverter

open Source Scan

/-- What becomes of a diagnostic when the text stands `lines` lines further down. -/
inductive Diagnostic.MovedDown (lines : Nat) : Diagnostic → Diagnostic → Prop
  /-- The line on which the innermost open brace stands is a part of the message. -/
  | unclosed (position : Position) (count innermostLine : Nat) :
    MovedDown lines (unclosedReport position count innermostLine)
      (unclosedReport (position.relined (· + lines)) count (innermostLine + lines))
  | other {diagnostic : Diagnostic}
      (h : ∀ position count line, diagnostic ≠ unclosedReport position count line) :
    MovedDown lines diagnostic (diagnostic.relined (· + lines))

theorem Scan.getLast?_message_unclosed (count line : Nat) :
    (ScopeError.unclosed count line).message.toList.getLast? = some ')' := by
  rw [ScopeError.message, String.toList_append, List.getLast?_append]
  rfl

theorem Scan.BraceReport.ne_unclosedReport {place : Position} {diagnostic : Diagnostic}
    (h : BraceReport place diagnostic) (position : Position) (count line : Nat) :
    diagnostic ≠ unclosedReport position count line := by
  have hlast : diagnostic.message.toList.getLast? ≠ some ')' := by
    cases h with
    | unexpectedExit =>
      change ScopeError.unexpectedExit.message.toList.getLast? ≠ some ')'
      decide
    | unclosedBody name =>
      have hending : ("' is never closed".toList).getLast? = some 'd' := by decide
      rw [String.toList_append, List.getLast?_append, hending]
      simp
  rintro rfl
  exact hlast (getLast?_message_unclosed count line)

theorem kind_ne_unbalancedScope {settings : BuildSettings} {raws : List RawEnum}
    {diagnostic : Diagnostic} (h : diagnostic ∈ (buildEnums settings [] raws).diagnostics) :
    diagnostic.kind ≠ .unbalancedScope := by
  obtain ⟨raw, -, earlier, result, houtcome, hgiven⟩ := exists_outcome settings h
  intro hkind
  have hkinds := houtcome.kinds diagnostic hgiven
  rw [hkind] at hkinds
  revert hkinds
  decide

namespace Placement

/-- A scan reports braces that are open at the end where the last token stands. -/
theorem scanTokens_tokens (placement : Placement) (tokens : List Token) :
    scanTokens (placement.tokens tokens) =
      scanFrom (placement.position ((tokens.getLast?.map (·.position)).getD .start)) {}
        (placement.tokens tokens) := by
  cases hlast : tokens.getLast? with
  | none =>
    obtain rfl := List.getLast?_eq_none_iff.1 hlast
    rw [tokens_nil, scanTokens, scanFrom, scanFrom]
    rfl
  | some last =>
    rw [scanTokens, Placement.tokens, List.getLast?_map, hlast]
    rfl

theorem movedDown_outline (lines : Nat) {diagnostics : List Diagnostic}
    (h : ∀ diagnostic ∈ diagnostics, ∃ place, BraceReport place diagnostic) :
    List.Forall₂ (Diagnostic.MovedDown lines) diagnostics
      (diagnostics.map (down lines).diagnostic) := by
  rw [List.forall₂_map_right_iff, List.forall₂_same]
  intro diagnostic hdiagnostic
  obtain ⟨place, hreport⟩ := h diagnostic hdiagnostic
  exact .other hreport.ne_unclosedReport

/-- What is reported of placed code is what is reported of the code, step by step. -/
theorem movedDown_scanFrom (lines : Nat) (final : Position) (state : ScanState)
    (tokens : List Token) :
    List.Forall₂ (Diagnostic.MovedDown lines) (scanFrom final state tokens).diagnostics
      (scanFrom ((down lines).position final) ((down lines).state state)
        ((down lines).tokens tokens)).diagnostics := by
  fun_induction scanFrom final state tokens with
  | case1 state hfinish =>
    cases hscopes : state.scopes with
    | nil =>
      have hmoved : ((down lines).state state).scopes = [] := congrArg (down lines).scopes hscopes
      rw [tokens_nil, scanFrom, hmoved]
      exact .nil
    | cons innermost outer => simp [hscopes, ScopeStack.finish] at hfinish
  | case2 state error hfinish =>
    cases hscopes : state.scopes with
    | nil => simp [hscopes, ScopeStack.finish] at hfinish
    | cons innermost outer =>
      have hmoved : ((down lines).state state).scopes =
          ⟨innermost.segments, innermost.line + lines⟩ :: (down lines).scopes outer :=
        congrArg (down lines).scopes hscopes
      have hdepth : ((down lines).scopes outer).length = outer.length := List.length_map _
      obtain rfl : ScopeError.unclosed (outer.length + 1) innermost.line = error := by
        rw [hscopes] at hfinish
        exact Except.error.inj hfinish
      rw [tokens_nil, scanFrom, hmoved, ScopeStack.finish, hdepth]
      exact .cons (.unclosed final _ innermost.line) .nil
  | case3 state token rest result ih =>
    rw [tokens_cons, scanFrom, step_tokens, Outline.diagnostics_append, Outline.diagnostics_append]
    refine List.rel_append (movedDown_outline lines ?_) ih
    intro diagnostic hdiagnostic
    obtain ⟨other, -, hreport⟩ := step_diagnostics state token rest diagnostic hdiagnostic
    exact ⟨other.position, hreport⟩

theorem movedDown_scanTokens (lines : Nat) (tokens : List Token) :
    List.Forall₂ (Diagnostic.MovedDown lines) (scanTokens tokens).diagnostics
      (scanTokens ((down lines).tokens tokens)).diagnostics := by
  rw [scanTokens_tokens]
  exact movedDown_scanFrom lines _ {} tokens

theorem relined_scanTokens (lines : Nat) {tokens : List Token}
    (h : ∀ token ∈ tokens, 1 ≤ token.position.line) :
    (scanTokens tokens).Relined (· + lines) (scanTokens ((down lines).tokens tokens)) := by
  have hmoves : MovesBelow (· + lines) 0 lines := fun _ _ => rfl
  have hfinal : 1 ≤ ((tokens.getLast?.map Token.position).getD Position.start).line := by
    cases hlast : tokens.getLast? with
    | none => exact Nat.le_refl 1
    | some last => exact h last (List.mem_of_getLast? hlast)
  rw [scanTokens_tokens]
  exact scanFrom_relined hmoves hfinal {} .nil h

end Placement

theorem Diagnostic.MovedDown.position_eq {lines : Nat} {diagnostic moved : Diagnostic}
    (h : diagnostic.MovedDown lines moved) :
    moved.position = diagnostic.position.relined (· + lines) := by
  cases h <;> rfl

theorem movedDown_sortDiagnostics {lines : Nat} {diagnostics moved : List Diagnostic}
    (h : List.Forall₂ (Diagnostic.MovedDown lines) diagnostics moved) :
    List.Forall₂ (Diagnostic.MovedDown lines) (sortDiagnostics diagnostics)
      (sortDiagnostics moved) := by
  have hmono : StrictMono (· + lines) := fun _ _ hlt => Nat.add_lt_add_right hlt lines
  refine forall₂_mergeSort ?_ h
  intro a b a' b' ha hb
  rw [ha.position_eq, hb.position_eq, Position.notAfter_relined hmono]

/-- A text whose tokens are those of another one further down builds what the other one builds. -/
theorem build_down {lines : Nat} {source moved : String}
    (h : tokenize moved = (Placement.down lines).tokens (tokenize source))
    (settings : BuildSettings) :
    (build settings moved).declarations =
        (build settings source).declarations.map (Declaration.relined (· + lines)) ∧
      List.Forall₂ (Diagnostic.MovedDown lines) (build settings source).diagnostics
        (build settings moved).diagnostics := by
  have hscan : (scan source).Relined (· + lines) (scan moved) := by
    rw [scan, scan, h]
    exact Placement.relined_scanTokens lines fun token htoken => (position_bounds htoken).1
  have hreports : List.Forall₂ (Diagnostic.MovedDown lines) (scan source).diagnostics
      (scan moved).diagnostics := by
    rw [scan, scan, h]
    exact Placement.movedDown_scanTokens lines _
  have hbuilt := buildEnums_relined settings [] hscan.enums
  refine ⟨congrArg Built.declarations hbuilt, movedDown_sortDiagnostics ?_⟩
  rw [hbuilt]
  refine List.rel_append hreports ?_
  rw [List.forall₂_map_right_iff, List.forall₂_same]
  intro diagnostic hdiagnostic
  refine .other fun position count line hreport => ?_
  exact kind_ne_unbalancedScope hdiagnostic (congrArg Diagnostic.kind hreport)

end EnumConverter
