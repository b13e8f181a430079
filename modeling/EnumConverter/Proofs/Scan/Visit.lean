import EnumConverter.Proofs.Scan.Words

namespace EnumConverter

open Source

namespace Scan

/-- The states in which a scan of `tokens` stands, each with the tokens that are left there. -/
inductive Visits (tokens : List Token) : ScanState → List Token → Prop
  | start : Visits tokens {} tokens
  | step {state : ScanState} {token : Token} {rest : List Token}
      (h : Visits tokens state (token :: rest)) :
      Visits tokens (step state token rest).state (step state token rest).rest

theorem Visits.suffix {tokens rest : List Token} {state : ScanState} (h : Visits tokens state rest) :
    rest <:+ tokens := by
  induction h with
  | start => exact List.suffix_rfl
  | @step state token rest _ ih =>
    exact ((step_suffix state token rest).trans (List.suffix_cons token rest)).trans ih

/-- An enum that is found is found by a step of the scan. -/
theorem exists_visits {tokens rest : List Token} {state : ScanState} (h : Visits tokens state rest)
    (final : Position) {raw : RawEnum} (hraw : raw ∈ (scanFrom final state rest).enums) :
    ∃ state token rest, Visits tokens state (token :: rest) ∧
      raw ∈ (step state token rest).found.enums := by
  fun_induction scanFrom final state rest with
  | case1 => simp at hraw
  | case2 => simp [Outline.unbalanced] at hraw
  | case3 state token rest result ih =>
    obtain hraw | hraw := List.mem_append.1 hraw
    · exact ⟨state, token, rest, h, hraw⟩
    · exact ih h.step hraw

/-- A comment is shown to the collector of comments and means nothing else. -/
theorem step_comment {token : Token} {comment : Comment} (hkind : token.kind = .comment comment)
    (state : ScanState) (rest : List Token) :
    step state token rest =
      { state := { state with doc := state.doc.observe comment token.position.line }, rest } := by
  simp [step, hkind]

theorem doc_readEnum (state : ScanState) (position : Position) (isTypedef : Bool)
    (rest : List Token) : (readEnum state position isTypedef rest).state.doc = [] := by
  have hread := enumRead_readEnum state position isTypedef rest
  generalize readEnum state position isTypedef rest = result at hread ⊢
  cases hread <;> rfl

/-- Code ends the block of comments that documents it. -/
theorem doc_step (state : ScanState) (token : Token) (rest : List Token)
    (htoken : token.isComment = false) : (step state token rest).state.doc = [] := by
  have hadvance := advance_step state token rest
  generalize step state token rest = result at hadvance ⊢
  cases hadvance with
  | comment hkind => simp [Token.isComment, Token.comment?, hkind] at htoken
  | namespaceWord | typeWord => exact doc_enterBody ..
  | enum => exact doc_readEnum ..
  | opening | closing | unexpected | skipped => rfl

/-- What the tokens behind the keyword of an enum say about its body. -/
structure HasBody (raw : RawEnum) (brace : Token) (inside : List Token) : Prop where
  opening : brace.isPunct '\x7b' = true
  enumerators : raw.enumerators = (readBody {} inside).enumerators
  closed : raw.closed = (readBody {} inside).closed

theorem readEnum_found {state : ScanState} {position : Position} {isTypedef : Bool}
    {after : List Token} {raw : RawEnum}
    (h : raw ∈ (readEnum state position isTypedef after).found.enums) :
    raw.position = position ∧ raw.doc = state.doc ∧
      ∃ brace inside, enumBody after = brace :: inside ∧ HasBody raw brace inside := by
  have hread := enumRead_readEnum state position isTypedef after
  generalize readEnum state position isTypedef after = result at hread h
  cases hread with
  | passed => simp at h
  | @defined isScoped brace inside hbody hbrace =>
    obtain rfl : raw = enumOf state position isTypedef isScoped (enumNames after) (readBody {} inside) := by
      simpa using h
    exact ⟨rfl, rfl, brace, inside, hbody, hbrace, rfl, rfl⟩

/-- What a step that finds an enum has read: the keyword and the body, and the comments before it were
those that the scan remembered. -/
theorem step_found {state : ScanState} {token : Token} {rest : List Token} {raw : RawEnum}
    (h : raw ∈ (step state token rest).found.enums) :
    raw.doc = state.doc ∧ ∃ after, Enters raw.position after token rest ∧
      ∃ brace inside, enumBody after = brace :: inside ∧ HasBody raw brace inside := by
  have hadvance := advance_step state token rest
  generalize step state token rest = result at hadvance h
  cases hadvance with
  | @enum position isTypedef after henters =>
    obtain ⟨rfl, hdoc, hbody⟩ := readEnum_found h
    exact ⟨hdoc, after, henters, hbody⟩
  | comment | namespaceWord | typeWord | opening | closing | skipped => simp at h
  | unexpected => simp [Outline.unbalanced] at h

/-- What a scan reports at a brace, which stands at `position`. -/
inductive BraceReport (position : Position) : Diagnostic → Prop
  | unexpectedExit : BraceReport position
      { kind := .unbalancedScope, message := ScopeError.unexpectedExit.message, position }
  | unclosedBody (name : Option String) : BraceReport position
      { kind := .unbalancedScope
        message := "body of enum '" ++ displayName name ++ "' is never closed"
        position }

/-- What a scan reports at the end of the tokens about the braces that are open there. -/
def unclosedReport (position : Position) (count innermostLine : Nat) : Diagnostic where
  kind := .unbalancedScope
  message := (ScopeError.unclosed count innermostLine).message
  position := position

theorem BraceReport.kind_eq {position : Position} {diagnostic : Diagnostic}
    (h : BraceReport position diagnostic) : diagnostic.kind = .unbalancedScope := by
  cases h <;> rfl

theorem BraceReport.position_eq {position : Position} {diagnostic : Diagnostic}
    (h : BraceReport position diagnostic) : diagnostic.position = position := by
  cases h <;> rfl

theorem readEnum_diagnostics (state : ScanState) (position : Position) (isTypedef : Bool)
    (rest : List Token) :
    ∀ diagnostic ∈ (readEnum state position isTypedef rest).found.diagnostics,
      ∃ token ∈ rest, BraceReport token.position diagnostic := by
  have hread := enumRead_readEnum state position isTypedef rest
  generalize readEnum state position isTypedef rest = result at hread ⊢
  cases hread with
  | passed => simp
  | @defined _ brace inside hbody _ =>
    have hbrace : brace ∈ rest := (enumBody_suffix rest).mem (by simp [hbody])
    intro diagnostic hdiagnostic
    rw [Outline.diagnostics_append, List.append_nil, bodyProblems] at hdiagnostic
    split at hdiagnostic
    · simp at hdiagnostic
    · obtain rfl := List.mem_singleton.1 hdiagnostic
      exact ⟨brace, hbrace, .unclosedBody _⟩

theorem exit_eq_error {scopes : ScopeStack} {error : ScopeError} (h : scopes.exit = .error error) :
    error = .unexpectedExit := by
  cases scopes with
  | nil => exact (Except.error.inj h).symm
  | cons innermost outer => cases h

theorem step_diagnostics (state : ScanState) (token : Token) (rest : List Token) :
    ∀ diagnostic ∈ (step state token rest).found.diagnostics,
      ∃ other ∈ token :: rest, BraceReport other.position diagnostic := by
  have hadvance := advance_step state token rest
  generalize step state token rest = result at hadvance ⊢
  cases hadvance with
  | comment | namespaceWord | typeWord | opening | closing | skipped => simp
  | enum henters =>
    intro diagnostic hdiagnostic
    obtain ⟨other, hother, hreport⟩ := readEnum_diagnostics _ _ _ _ diagnostic hdiagnostic
    exact ⟨other, henters.suffix.mem (List.mem_cons_of_mem _ hother), hreport⟩
  | unexpected _ hexit =>
    obtain rfl := exit_eq_error hexit
    intro diagnostic hdiagnostic
    obtain rfl := List.mem_singleton.1 hdiagnostic
    exact ⟨token, List.mem_cons_self .., .unexpectedExit⟩

/-- A scan reports at tokens, and at the place that it was told to use for its end. -/
theorem scanFrom_diagnostics (final : Position) (state : ScanState) (tokens : List Token) :
    ∀ diagnostic ∈ (scanFrom final state tokens).diagnostics,
      (∃ token ∈ tokens, BraceReport token.position diagnostic) ∨
        ∃ count line, diagnostic = unclosedReport final count line := by
  fun_induction scanFrom final state tokens with
  | case1 => simp
  | case2 state error hfinish =>
    cases hscopes : state.scopes with
    | nil => simp [hscopes, ScopeStack.finish] at hfinish
    | cons innermost outer =>
      obtain rfl : ScopeError.unclosed _ innermost.line = error := by
        rw [hscopes] at hfinish
        exact Except.error.inj hfinish
      intro diagnostic hdiagnostic
      exact .inr ⟨_, _, List.mem_singleton.1 hdiagnostic⟩
  | case3 state token rest result ih =>
    intro diagnostic hdiagnostic
    obtain hfound | hlater := List.mem_append.1 hdiagnostic
    · exact .inl (step_diagnostics state token rest diagnostic hfound)
    · obtain ⟨other, hother, hreport⟩ | hfinal := ih diagnostic hlater
      · exact .inl ⟨other, List.mem_cons_of_mem _ ((step_suffix state token rest).mem hother), hreport⟩
      · exact .inr hfinal

/-- Everything that a scan reports stands at a token. -/
theorem scanTokens_diagnostics (tokens : List Token) :
    ∀ diagnostic ∈ (scanTokens tokens).diagnostics,
      ∃ token ∈ tokens, token.position = diagnostic.position := by
  intro diagnostic hdiagnostic
  obtain ⟨token, htoken, hreport⟩ | ⟨count, line, hfinal⟩ :=
    scanFrom_diagnostics _ _ _ diagnostic hdiagnostic
  · exact ⟨token, htoken, hreport.position_eq.symm⟩
  · cases hlast : tokens.getLast? with
    | none =>
      -- Without tokens no brace is open at the end.
      obtain rfl := List.getLast?_eq_none_iff.1 hlast
      simp [scanTokens, scanFrom, ScopeStack.finish] at hdiagnostic
    | some last =>
      rw [hlast] at hfinal
      exact ⟨last, List.mem_of_getLast? hlast, (congrArg Diagnostic.position hfinal).symm⟩

end Scan

end EnumConverter
