import EnumConverter.Proofs.Body.Passage
import EnumConverter.Proofs.Placed.Outline
import EnumConverter.Proofs.Scan.Visit
import EnumConverter.Proofs.Statement.Sequel

namespace EnumConverter.Scan

open Source

variable {tokens rest : List Token} {token : Token} (more : List Token)

section Depth

variable {state : BodyState} {next : Option Token}

theorem BodyState.depth_onComment (state : BodyState) (comment : Comment) (line : Nat) :
    (state.onComment comment line).depth = state.depth := by
  unfold onComment
  split
  · rfl
  · split <;> rfl

theorem BodyState.depth_onCode_other
    (h : ∀ pair ∈ bracketPairs, token.kind ≠ .punct pair.1 ∧ token.kind ≠ .punct pair.2) :
    (state.onCode token next).depth = state.depth := by
  simp only [bracketPairs, List.forall_mem_cons, List.not_mem_nil] at h
  unfold onCode
  dsimp only
  split
  all_goals first
    | rfl
    | (split <;> rfl)
    | simp_all

end Depth

/-- What was read of a body, with a sequel behind it. -/
def Body.followed (body : Body) (more : List Token) : Body :=
  { body with rest := body.rest ++ more }

/-- The first code of tokens that end with a statement is not that of a sequel. -/
theorem head?_skipComments_append (h : WellEnded tokens) :
    (skipComments (tokens ++ more)).head? = (skipComments tokens).head? := by
  obtain ⟨first, others, hskip⟩ := List.exists_cons_of_ne_nil h.skipComments.ne_nil
  rw [skipComments_append more h, hskip, List.cons_append, List.head?_cons, List.head?_cons]

/-- A body is read in the same way before a sequel, if the brackets that are open in it are the first
that have to be closed. -/
theorem readBody_append {above outer : List Char} {state : BodyState}
    (hnested : nested (above ++ '\x7d' :: outer) tokens = true)
    (hlast : tokens.getLast?.any (·.isPunct ';') = true) (hdepth : above.length = state.depth) :
    WellEnded (readBody state tokens).rest ∧
      readBody state (tokens ++ more) = (readBody state tokens).followed more := by
  induction tokens generalizing state above with
  | nil => simp at hlast
  | cons token rest ih =>
    have hended : WellEnded (token :: rest) := ⟨⟨_, hnested⟩, hlast⟩
    have hopen {above : List Char} (hstack : nested (above ++ '\x7d' :: outer) rest = true) :
        WellEnded rest :=
      hended.suffix (List.suffix_cons ..) (by rintro rfl; simp [nested] at hstack)
    have hcode {above : List Char} (hcomment : token.comment? = none)
        (hinside : state.depth = 0 → token.isPunct '\x7d' = false ∧ token.isPunct ';' = false)
        (hstack : nested (above ++ '\x7d' :: outer) rest = true)
        (hdepth : above.length = (state.onCode token (skipComments rest).head?).depth) :
        WellEnded (readBody state (token :: rest)).rest ∧
          readBody state (token :: rest ++ more) = (readBody state (token :: rest)).followed more := by
      rw [List.cons_append, readBody_code hcomment hinside, readBody_code hcomment hinside,
        head?_skipComments_append more (hopen hstack)]
      exact ih hstack (hopen hstack).last hdepth
    have hpunct {c : Char} (hkind : token.kind = .punct c) : token.comment? = none := by
      simp [Token.comment?, hkind]
    obtain ⟨pair, hpair, hkind, hrest⟩ | ⟨pair, hpair, inner, hkind, hstack, hrest⟩ |
      ⟨hnone, hrest⟩ := nested_cons hnested
    · -- One more bracket is open.
      have hmarks : ∀ pair ∈ bracketPairs, pair.1 ≠ '\x7d' ∧ pair.1 ≠ ';' := by decide
      refine hcode (hpunct hkind) (fun _ => ?_) (show nested (pair.2 :: above ++ _) rest = true from hrest)
        (by simp [state.onCode_opening hpair hkind, hdepth])
      simp [Token.isPunct, hkind, hmarks pair hpair]
    · cases above with
      | nil =>
        -- The brace of the body itself is closed.
        obtain ⟨hbrace, rfl⟩ : '\x7d' = pair.2 ∧ outer = inner := by simpa using hstack
        rw [← hbrace] at hkind
        have hclosing : token.isPunct '\x7d' = true := by simp [Token.isPunct, hkind]
        rw [List.cons_append, readBody_close hdepth.symm (hpunct hkind) hclosing,
          readBody_close hdepth.symm (hpunct hkind) hclosing]
        exact ⟨hended.tail_of_kind hkind (by simp), rfl⟩
      | cons closing above =>
        -- A bracket inside the body is closed.
        obtain ⟨-, rfl⟩ : closing = pair.2 ∧ above ++ '\x7d' :: outer = inner := by simpa using hstack
        refine hcode (hpunct hkind) (fun hzero => ?_) hrest
          (by simp [state.onCode_closing hpair hkind, ← hdepth])
        simp [hzero] at hdepth
    · cases hcomment : token.comment? with
      | some comment =>
        rw [List.cons_append, readBody_comment hcomment, readBody_comment hcomment]
        exact ih hrest (hopen hrest).last (by rw [BodyState.depth_onComment, hdepth])
      | none =>
        have hbrace : token.isPunct '\x7d' = false := by
          simpa [Token.isPunct] using (hnone ('\x7b', '\x7d') (by decide)).2
        by_cases hend : state.depth = 0 ∧ token.isPunct ';' = true
        · rw [List.cons_append, readBody_stop hend.1 hcomment hbrace hend.2,
            readBody_stop hend.1 hcomment hbrace hend.2]
          exact ⟨hended, rfl⟩
        · refine hcode hcomment (fun hzero => ⟨hbrace, ?_⟩) hrest
            (by rw [BodyState.depth_onCode_other hnone, hdepth])
          simpa [hzero] using hend

/-- A step with a sequel behind the tokens that it leaves. -/
def Step.followed (step : Step) (more : List Token) : Step :=
  { step with rest := step.rest ++ more }

theorem enterBody_append (scopes : ScopeStack) (segments : Scope) (line : Nat) (h : WellEnded tokens) :
    enterBody scopes segments line (tokens ++ more) =
      (enterBody scopes segments line tokens).followed more := by
  unfold enterBody
  rw [afterOpenBrace?_append more h]
  cases afterOpenBrace? tokens <;> rfl

theorem readNamespace_append (scopes : ScopeStack) (line : Nat) (h : WellEnded rest) :
    readNamespace scopes line (rest ++ more) = (readNamespace scopes line rest).followed more := by
  obtain ⟨hleft, hname⟩ := namespaceName_append more h.skipComments
  rw [readNamespace_eq_enterBody, namespaceScope, namespaceBody, skipComments_append more h, hname]
  exact enterBody_append more _ _ _ hleft

theorem readType_append (scopes : ScopeStack) (line : Nat) (h : WellEnded rest)
    (hends : (qualifiedName (skipAttributes (skipComments rest))).2 ≠ []) :
    readType scopes line (rest ++ more) = (readType scopes line rest).followed more := by
  obtain ⟨hattributes, hskip⟩ := skipAttributes_append more h.skipComments
  have hname := hattributes.suffix (qualifiedName_suffix _) hends
  obtain ⟨hword, hfinal⟩ := skipWord_append more "final" hname
  obtain ⟨hbase, hclause⟩ := skipBaseClause_append more hword
  rw [readType_eq_enterBody, typeScope, typeBody, skipComments_append more h, hskip,
    qualifiedName_append more hattributes hends]
  dsimp only
  rw [hfinal, hclause]
  exact enterBody_append more _ _ _ hbase

theorem readEnumKey_append (h : WellEnded tokens) :
    WellEnded (readEnumKey tokens).2 ∧
      readEnumKey (tokens ++ more) = ((readEnumKey tokens).1, (readEnumKey tokens).2 ++ more) := by
  cases tokens with
  | nil => exact absurd rfl h.ne_nil
  | cons token rest =>
    simp only [List.cons_append, readEnumKey]
    split
    · rename_i hword
      have hrest : WellEnded rest := by
        obtain hkind | hkind : token.kind = .ident "class" ∨ token.kind = .ident "struct" := by
          simpa [Token.isIdent] using hword
        all_goals exact h.tail_of_kind hkind (by simp)
      exact ⟨hrest.skipComments, by rw [skipComments_append more hrest]⟩
    · exact ⟨h, rfl⟩

theorem readAlias_append (h : WellEnded tokens) :
    readAlias (tokens ++ more) = ((readAlias tokens).1, (readAlias tokens).2 ++ more) := by
  unfold readAlias
  rw [skipComments_append more h]
  cases hskip : skipComments tokens with
  | nil => exact absurd hskip h.skipComments.ne_nil
  | cons token rest =>
    simp only [List.cons_append]
    cases token.ident? <;> rfl

theorem nameBehind_append (isTypedef : Bool) (name : Option String) {body : Body}
    (h : WellEnded body.rest) :
    nameBehind isTypedef name (body.followed more) =
      ((nameBehind isTypedef name body).1, (nameBehind isTypedef name body).2 ++ more) := by
  have hclosed : (body.followed more).closed = body.closed := rfl
  have hrest : (body.followed more).rest = body.rest ++ more := rfl
  rw [nameBehind, nameBehind, hclosed, hrest, readAlias_append more h]
  split <;> rfl

theorem enterEnum_append (state : ScanState) (position : Position) (isTypedef isScoped : Bool)
    (names : List String) (h : WellEnded tokens) :
    enterEnum state position isTypedef isScoped names (tokens ++ more) =
      (enterEnum state position isTypedef isScoped names tokens).followed more := by
  cases tokens with
  | nil => exact absurd rfl h.ne_nil
  | cons brace inside =>
    rw [List.cons_append, enterEnum, enterEnum]
    by_cases hbrace : brace.isPunct '\x7b' = true
    · have hkind : brace.kind = .punct '\x7b' := by simpa [Token.isPunct] using hbrace
      have hinner : WellEnded inside := h.tail_of_kind hkind (by simp)
      obtain ⟨stack, hnested⟩ := h.nested
      have hopen : nested ([] ++ '\x7d' :: stack) inside = true := by simpa [nested, hkind] using hnested
      obtain ⟨hleft, hread⟩ : WellEnded (readBody {} inside).rest ∧
          readBody {} (inside ++ more) = (readBody {} inside).followed more :=
        readBody_append more hopen hinner.last rfl
      rw [if_pos hbrace, if_pos hbrace, hread, enumOf, nameBehind_append more _ _ hleft]
      rfl
    · rw [if_neg hbrace, if_neg hbrace]
      rfl

theorem readEnum_append (state : ScanState) (position : Position) (isTypedef : Bool)
    (h : WellEnded rest)
    (hends : (qualifiedName (skipAttributes (readEnumKey (skipComments rest)).2)).2 ≠ []) :
    readEnum state position isTypedef (rest ++ more) =
      (readEnum state position isTypedef rest).followed more := by
  obtain ⟨hkey, hreadKey⟩ := readEnumKey_append more h.skipComments
  obtain ⟨hattributes, hskip⟩ := skipAttributes_append more hkey
  obtain ⟨hbase, hclause⟩ :=
    skipBaseClause_append more (hattributes.suffix (qualifiedName_suffix _) hends)
  rw [readEnum_eq_enterEnum, enumNames, enumBody, skipComments_append more h, hreadKey]
  dsimp only
  rw [hskip, qualifiedName_append more hattributes hends]
  dsimp only
  rw [hclause]
  exact enterEnum_append more _ _ _ _ _ hbase

/-- Whether the name behind a keyword `token` that opens a type or an enum ends before the tokens do. It
does, unless its template arguments have no end. -/
def nameEnds (token : Token) (rest : List Token) : Bool :=
  match token.ident? with
  | none => true
  | some word =>
    if word ∈ typeWords then !(qualifiedName (skipAttributes (skipComments rest))).2.isEmpty
    else if word = "enum" then
      !(qualifiedName (skipAttributes (readEnumKey (skipComments rest)).2)).2.isEmpty
    else true

/-- Whether all names of types and enums end before the tokens do. -/
def namesEnd : List Token → Bool
  | [] => true
  | token :: rest => nameEnds token rest && namesEnd rest

theorem namesEnd_of_suffix (hsuffix : rest <:+ tokens) (h : namesEnd tokens = true) :
    namesEnd rest = true := by
  induction tokens with
  | nil =>
    rw [List.suffix_nil.1 hsuffix]
    rfl
  | cons token tail ih =>
    obtain rfl | htail := List.suffix_cons_iff.1 hsuffix
    · exact h
    · exact ih htail (Bool.and_eq_true_iff.1 h).2

/-- A step is the same before a sequel. -/
theorem step_append (state : ScanState) (h : WellEnded (token :: rest))
    (hends : namesEnd (token :: rest) = true) :
    step state token (rest ++ more) = (step state token rest).followed more := by
  obtain ⟨hname, htail⟩ := Bool.and_eq_true_iff.1 hends
  obtain ⟨kind, position⟩ := token
  cases kind with
  | comment comment => rfl
  | ident word =>
    have hrest : WellEnded rest := h.tail (isPunct_of_ident? rfl _)
    simp only [nameEnds, Token.ident?] at hname
    simp only [step]
    split
    · exact readNamespace_append more _ _ hrest
    split
    · rename_i hword
      exact readType_append more _ _ hrest (by simpa [hword] using hname)
    split
    · rename_i hnotType hword
      subst hword
      exact readEnum_append more _ _ _ hrest (by simpa [hnotType] using hname)
    split
    · rw [skipComments_append more hrest]
      cases hskip : skipComments rest with
      | nil => exact absurd hskip hrest.skipComments.ne_nil
      | cons next after =>
        simp only [List.cons_append]
        split
        · rename_i henum
          have hkind : next.kind = .ident "enum" := by simpa [Token.isIdent] using henum
          have hended := hrest.skipComments
          rw [hskip] at hended
          have hnext := namesEnd_of_suffix (skipComments_suffix rest) htail
          rw [hskip] at hnext
          refine readEnum_append more _ _ _ (hended.tail_of_kind hkind (by simp)) ?_
          have hend := (Bool.and_eq_true_iff.1 hnext).1
          simpa [nameEnds, Token.ident?, hkind, typeWords] using hend
        · rfl
    · rfl
  | punct c =>
    simp only [step]
    split
    case h_4 => cases state.scopes.exit <;> rfl
    all_goals first | rfl | contradiction
  | _ => rfl

/-- Where nothing is reported at the end, no brace is open. -/
theorem scopes_of_scanFrom_nil {final : Position} {state : ScanState}
    (h : (scanFrom final state []).diagnostics = []) : state.scopes = [] := by
  cases hscopes : state.scopes with
  | nil => rfl
  | cons innermost outer => simp [scanFrom, hscopes, ScopeStack.finish, Outline.unbalanced] at h

/-- The enums of tokens that end with a statement stand before those of a sequel, and the sequel is read
from the global scope. -/
theorem enums_scanFrom_append (final other : Position) (state : ScanState) (h : WellEnded tokens)
    (hends : namesEnd tokens = true) (hclean : (scanFrom final state tokens).diagnostics = []) :
    (scanFrom other state (tokens ++ more)).enums =
      (scanFrom final state tokens).enums ++ (scanFrom other {} more).enums := by
  fun_induction scanFrom final state tokens with
  | case1 => exact absurd rfl h.ne_nil
  | case2 => exact absurd rfl h.ne_nil
  | case3 state token rest result =>
    rename_i ih
    have hsuffix : result.rest <:+ token :: rest :=
      (step_suffix state token rest).trans (List.suffix_cons ..)
    rw [Outline.diagnostics_append, List.append_eq_nil_iff] at hclean
    rw [List.cons_append, scanFrom, step_append more state h hends]
    change (result.found ++ scanFrom other result.state (result.rest ++ more)).enums = _
    rw [Outline.enums_append, Outline.enums_append, List.append_assoc]
    congr 1
    by_cases hrest : result.rest = []
    · -- The last step was over the semicolon at the end, so nothing is open and nothing documents.
      have htoken : token.isComment = false := by
        cases htoken : token.isComment with
        | false => rfl
        | true =>
          obtain ⟨comment, hkind⟩ := token.exists_comment htoken
          have hnil : rest = [] := by simpa [result, step, hkind] using hrest
          subst hnil
          simpa [isPunct_of_isComment htoken] using h.last
      rw [hrest] at hclean ⊢
      have hscopes := scopes_of_scanFrom_nil hclean.2
      have hdoc : result.state.doc = [] := doc_step state token rest htoken
      have hstate : result.state = {} := by
        cases hresult : result.state
        simp_all
      simp [hstate, scanFrom, ScopeStack.finish]
    · exact ih (h.suffix hsuffix hrest) (namesEnd_of_suffix hsuffix hends) hclean.2

/-- Scanning is compositional at the end of a statement. Let a text be scanned without problems, let it
end with a semicolon, with properly nested brackets, and let its names end. Then whatever text follows
on the next line, its enums are found as they are found in that text alone, only further down. -/
theorem enums_scan_append (first second : String) (hclean : (scan first).diagnostics = [])
    (hlast : (tokenize first).getLast?.any (·.isPunct ';') = true)
    (hnested : nested [] (tokenize first) = true)
    (htokens : tokenize (first ++ "\n" ++ second) = tokenize first ++
      (Placement.down (first.toList.count '\n' + 1)).tokens (tokenize second))
    (hends : namesEnd (tokenize first) = true) :
    (scan (first ++ "\n" ++ second)).enums = (scan first).enums ++
      (scan second).enums.map (Placement.down (first.toList.count '\n' + 1)).rawEnum := by
  have hfirst : WellEnded (tokenize first) := ⟨⟨[], hnested⟩, hlast⟩
  unfold scan
  rw [htokens, scanTokens, enums_scanFrom_append _ _ _ {} hfirst hends hclean]
  exact congrArg _ (Placement.enums_scanFrom_tokens _ _ _ {} (tokenize second))

/-- A text with an attribute, template arguments, a base clause and a shift in an enumerator. -/
def settledText : String :=
  "class [[x]] c<int> : b \x7b\nenum k \x7b x = (1 << 3) \x7d; \x7d;"

theorem enums_scan_append_settledText :
    namesEnd (tokenize settledText) = true ∧
      (scan (settledText ++ "\n" ++ "/// d\nenum e \x7b u \x7d;")).enums =
        (scan settledText).enums ++ (scan "/// d\nenum e \x7b u \x7d;").enums.map
          (Placement.down (settledText.toList.count '\n' + 1)).rawEnum := by
  have hends : namesEnd (tokenize settledText) = true := by decide +kernel
  refine ⟨hends, enums_scan_append settledText _ ?_ ?_ ?_ ?_ hends⟩
  · decide +kernel
  · decide +kernel
  · decide +kernel
  · decide +kernel

/-- A shift in the arguments of a template, in parentheses as it has to be. -/
def shiftText : String :=
  "template <> struct m<(1 << 3)> \x7b\x7d;"

/-- The two `<` of the shift are taken for brackets that nothing closes, so that the enum behind the
specialization is passed over, although all else is as it should be. -/
theorem shiftText_hides_enum :
    (scan shiftText).diagnostics = [] ∧
      (tokenize shiftText).getLast?.any (·.isPunct ';') = true ∧
      nested [] (tokenize shiftText) = true ∧
      tokenize (shiftText ++ "\n" ++ "enum e \x7b a \x7d;") =
        tokenize shiftText ++ (Placement.down 1).tokens (tokenize "enum e \x7b a \x7d;") ∧
      (scan (shiftText ++ "\n" ++ "enum e \x7b a \x7d;")).enums = [] ∧
      (scan "enum e \x7b a \x7d;").enums.map (·.name) = [some "e"] := by
  decide +kernel

end EnumConverter.Scan
