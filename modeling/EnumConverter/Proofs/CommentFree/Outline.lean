import EnumConverter.Proofs.CommentFree.Name
import EnumConverter.Proofs.Scan.Step

namespace EnumConverter.Scan

open Source

/-- An enumerator without the comments behind it. -/
def RawEnumerator.bare (enumerator : RawEnumerator) : RawEnumerator :=
  { enumerator with trailing := [] }

/-- An enum without its documentation and without the comments behind its enumerators. -/
def RawEnum.bare (raw : RawEnum) : RawEnum :=
  { raw with doc := [], enumerators := raw.enumerators.map RawEnumerator.bare }

/-- An outline in which enums are kept without comments. -/
def Outline.bare (outline : Outline) : Outline :=
  { outline with enums := outline.enums.map RawEnum.bare }

@[simp] theorem Outline.bare_append (first second : Outline) :
    (first ++ second).bare = first.bare ++ second.bare := by
  change Outline.mk _ _ = Outline.mk _ _
  simp [Outline.bare]

/-- A state of reading a body without what comments leave in it. -/
def BodyState.bare (state : BodyState) : BodyState :=
  { state with enumerators := state.enumerators.map RawEnumerator.bare, attachedEnd := none }

theorem BodyState.bare_onComment (state : BodyState) (comment : Comment) (line : Nat) :
    (state.onComment comment line).bare = state.bare := by
  unfold onComment
  split
  · rfl
  · rename_i latest earlier hlatest
    split
    · simp [bare, hlatest, RawEnumerator.bare]
    · rfl

/-- What code does to a state does not depend on what comments left in it. -/
theorem BodyState.bare_onCode {state other : BodyState} (h : state.bare = other.bare) (token : Token)
    (next : Option Token) : (state.onCode token next).bare = (other.onCode token next).bare := by
  obtain ⟨enumerators, expectsName, depth, angles, attachedEnd, afterIdent⟩ := state
  obtain ⟨enumerators', expectsName', depth', angles', attachedEnd', afterIdent'⟩ := other
  simp only [bare, BodyState.mk.injEq] at h
  obtain ⟨henumerators, rfl, rfl, rfl, -, rfl⟩ := h
  have hopens : (BodyState.mk enumerators expectsName depth angles attachedEnd afterIdent).opensTemplate
      next = (BodyState.mk enumerators' expectsName depth angles attachedEnd' afterIdent).opensTemplate
      next := rfl
  unfold onCode
  rw [hopens]
  dsimp only
  cases token.kind with
  | punct c =>
    -- Every bracket, angle and comma changes a counter, and no counter depends on the comments.
    repeat' split
    all_goals simp_all [bare]
  | ident name =>
    dsimp only
    split <;> simp [bare, henumerators]
  | _ => simp_all [bare]

/-- What was read of a body, with enumerators and tokens without comments. -/
def Body.bare (body : Body) : Body :=
  ⟨body.enumerators.map RawEnumerator.bare, body.closed, withoutComments body.rest⟩

theorem isComment_eq_false_iff {token : Token} : token.isComment = false ↔ token.comment? = none := by
  unfold Token.isComment
  cases token.comment? <;> simp

theorem isComment_of_comment? {token : Token} {comment : Comment}
    (h : token.comment? = some comment) : token.isComment = true := by
  rw [Token.isComment, h]
  rfl

theorem head?_withoutComments (tokens : List Token) :
    (withoutComments tokens).head? = (skipComments tokens).head? := by
  cases hskip : skipComments tokens with
  | nil => rw [← withoutComments_skipComments, hskip]; rfl
  | cons token rest => rw [(withoutComments_eq_cons hskip).2]; rfl

/-- Reading a body gives the same enumerators whether or not comments stand in it. -/
theorem readBody_withoutComments {state other : BodyState} (h : other.bare = state.bare)
    (tokens : List Token) :
    (readBody other (withoutComments tokens)).bare = (readBody state tokens).bare := by
  have henumerators {a b : BodyState} (hab : a.bare = b.bare) :
      a.enumerators.map RawEnumerator.bare = b.enumerators.map RawEnumerator.bare :=
    congrArg BodyState.enumerators hab
  have hdepth {a b : BodyState} (hab : a.bare = b.bare) : a.depth = b.depth := by
    change a.bare.depth = b.bare.depth
    rw [hab]
  fun_induction readBody state tokens generalizing other with
  | case1 state => simp [readBody, Body.bare, henumerators h]
  | case2 state token rest comment hcomment ih =>
    rw [withoutComments_cons_comment (isComment_of_comment? hcomment)]
    exact ih (by rw [h, BodyState.bare_onComment])
  | case3 state token rest hcomment hclosing =>
    rw [withoutComments_cons_code (isComment_eq_false_iff.2 hcomment), readBody, hcomment]
    simp [hdepth h, hclosing, Body.bare, henumerators h]
  | case4 state token rest hcomment hclosing hsemicolon =>
    have hcode := isComment_eq_false_iff.2 hcomment
    rw [withoutComments_cons_code hcode, readBody, hcomment]
    simp [hdepth h, hclosing, hsemicolon, Body.bare, henumerators h, withoutComments_cons_code hcode]
  | case5 state token rest hcomment hclosing hsemicolon ih =>
    rw [withoutComments_cons_code (isComment_eq_false_iff.2 hcomment), readBody, hcomment]
    simp only [hdepth h, hclosing, hsemicolon]
    rw [skipComments_withoutComments, head?_withoutComments]
    exact ih (BodyState.bare_onCode h token _)

/-- What a step leaves, without what comments leave in it. -/
def Step.bare (step : Step) : Step where
  state := { scopes := step.state.scopes }
  found := step.found.bare
  rest := withoutComments step.rest

theorem enterBody_withoutComments (scopes : ScopeStack) (segments : Scope) (line : Nat)
    {tokens : List Token} (h : CodeFirst tokens) :
    (enterBody scopes segments line (withoutComments tokens)).bare =
      (enterBody scopes segments line tokens).bare := by
  unfold enterBody
  rw [afterOpenBrace?_withoutComments h]
  cases afterOpenBrace? tokens <;> simp [Step.bare]

theorem readNamespace_withoutComments (scopes : ScopeStack) (line : Nat) (rest : List Token) :
    (readNamespace scopes line (withoutComments rest)).bare = (readNamespace scopes line rest).bare := by
  obtain ⟨hfirst, hname⟩ := namespaceName_withoutComments (codeFirst_skipComments rest)
  rw [withoutComments_skipComments] at hname
  rw [readNamespace_eq_enterBody, namespaceScope, namespaceBody, skipComments_withoutComments, hname]
  exact enterBody_withoutComments _ _ _ hfirst

theorem readType_withoutComments (scopes : ScopeStack) (line : Nat) (rest : List Token) :
    (readType scopes line (withoutComments rest)).bare = (readType scopes line rest).bare := by
  obtain ⟨hattributes, hskip⟩ := skipAttributes_withoutComments (codeFirst_skipComments rest)
  obtain ⟨hname, hread⟩ := qualifiedName_withoutComments hattributes
  obtain ⟨hfinal, hword⟩ := skipWord_withoutComments "final" hname
  obtain ⟨hbase, hclause⟩ := skipBaseClause_withoutComments hfinal
  rw [withoutComments_skipComments] at hskip
  rw [readType_eq_enterBody, typeScope, typeBody, skipComments_withoutComments, hskip, hread]
  dsimp only
  rw [hword, hclause]
  exact enterBody_withoutComments _ _ _ hbase

theorem readEnumKey_withoutComments {tokens : List Token} (h : CodeFirst tokens) :
    CodeFirst (readEnumKey tokens).2 ∧
      readEnumKey (withoutComments tokens) =
        ((readEnumKey tokens).1, withoutComments (readEnumKey tokens).2) := by
  cases tokens with
  | nil => exact ⟨codeFirst_nil, rfl⟩
  | cons token rest =>
    rw [withoutComments_cons_code (codeFirst_cons.1 h)]
    unfold readEnumKey
    dsimp only
    split
    · exact ⟨codeFirst_skipComments rest, by simp⟩
    · exact ⟨h, by rw [withoutComments_cons_code (codeFirst_cons.1 h)]⟩

theorem readAlias_withoutComments (tokens : List Token) :
    (readAlias (withoutComments tokens)).1 = (readAlias tokens).1 ∧
      withoutComments (readAlias (withoutComments tokens)).2 = withoutComments (readAlias tokens).2 := by
  unfold readAlias
  rw [skipComments_withoutComments]
  cases hskip : skipComments tokens with
  | nil =>
    have hcode : withoutComments tokens = [] := by rw [← withoutComments_skipComments, hskip]; rfl
    simp [hcode]
  | cons token rest =>
    obtain ⟨-, hcode⟩ := withoutComments_eq_cons hskip
    rw [hcode]
    dsimp only
    cases token.ident? with
    | none => simp [← hcode]
    | some name => simp

/-- The alias behind a body and the tokens behind it, of the code behind the body alone. -/
theorem readAlias_congr {tokens others : List Token}
    (h : withoutComments tokens = withoutComments others) :
    (readAlias tokens).1 = (readAlias others).1 ∧
      withoutComments (readAlias tokens).2 = withoutComments (readAlias others).2 := by
  obtain ⟨hname, hrest⟩ := readAlias_withoutComments tokens
  obtain ⟨hname', hrest'⟩ := readAlias_withoutComments others
  rw [← hname, ← hname', ← hrest, ← hrest', h]
  exact ⟨rfl, rfl⟩

theorem nameBehind_congr (isTypedef : Bool) (name : Option String) {body other : Body}
    (h : body.bare = other.bare) :
    (nameBehind isTypedef name body).1 = (nameBehind isTypedef name other).1 ∧
      withoutComments (nameBehind isTypedef name body).2 =
        withoutComments (nameBehind isTypedef name other).2 := by
  simp only [Body.bare, Body.mk.injEq] at h
  obtain ⟨-, hclosed, hrest⟩ := h
  rw [nameBehind, nameBehind, hclosed]
  split
  · exact readAlias_congr hrest
  · exact ⟨rfl, hrest⟩

theorem enterEnum_withoutComments (scopes : ScopeStack) (doc other : DocBlock) (position : Position)
    (isTypedef isScoped : Bool) (names : List String) {tokens : List Token} (h : CodeFirst tokens) :
    (enterEnum ⟨scopes, other⟩ position isTypedef isScoped names (withoutComments tokens)).bare =
      (enterEnum ⟨scopes, doc⟩ position isTypedef isScoped names tokens).bare := by
  cases tokens with
  | nil => rfl
  | cons brace inside =>
    rw [codeFirst_cons] at h
    rw [withoutComments_cons_code h, enterEnum, enterEnum]
    split
    · have hread : (readBody {} (withoutComments inside)).bare = (readBody {} inside).bare :=
        readBody_withoutComments rfl inside
      obtain ⟨hname, hrest⟩ := nameBehind_congr isTypedef names.getLast? hread
      simp only [Body.bare, Body.mk.injEq] at hread
      obtain ⟨henumerators, hclosed, -⟩ := hread
      simp only [Step.bare, Outline.bare_append, bodyProblems, hclosed, hrest]
      simp only [Outline.bare, List.map_cons, List.map_nil, RawEnum.bare, enumOf, hname, hclosed,
        henumerators]
    · simp [Step.bare, withoutComments_cons_code h]

theorem readEnum_withoutComments (scopes : ScopeStack) (doc other : DocBlock) (position : Position)
    (isTypedef : Bool) (rest : List Token) :
    (readEnum ⟨scopes, other⟩ position isTypedef (withoutComments rest)).bare =
      (readEnum ⟨scopes, doc⟩ position isTypedef rest).bare := by
  obtain ⟨hkey, hreadKey⟩ := readEnumKey_withoutComments (codeFirst_skipComments rest)
  obtain ⟨hattributes, hskip⟩ := skipAttributes_withoutComments hkey
  obtain ⟨hname, hreadName⟩ := qualifiedName_withoutComments hattributes
  obtain ⟨hbase, hclause⟩ := skipBaseClause_withoutComments hname
  rw [withoutComments_skipComments] at hreadKey
  rw [readEnum_eq_enterEnum, enumNames, enumBody, skipComments_withoutComments, hreadKey]
  dsimp only
  rw [hskip, hreadName]
  dsimp only
  rw [hclause]
  exact enterEnum_withoutComments _ _ _ _ _ _ _ hbase

/-- Reading from a token that is no comment on is the same without the comments behind it. -/
theorem step_withoutComments (scopes : ScopeStack) (doc other : DocBlock) {token : Token}
    (htoken : token.isComment = false) (rest : List Token) :
    (step ⟨scopes, other⟩ token (withoutComments rest)).bare = (step ⟨scopes, doc⟩ token rest).bare := by
  unfold step
  dsimp only
  split
  · rename_i comment hkind
    simp [Token.isComment, Token.comment?, hkind] at htoken
  · split
    · exact readNamespace_withoutComments ..
    split
    · exact readType_withoutComments ..
    split
    · exact readEnum_withoutComments ..
    split
    · rw [skipComments_withoutComments]
      cases hskip : skipComments rest with
      | nil =>
        have hcode : withoutComments rest = [] := by rw [← withoutComments_skipComments, hskip]; rfl
        simp [hcode, Step.bare]
      | cons next after =>
        obtain ⟨-, hcode⟩ := withoutComments_eq_cons hskip
        rw [hcode]
        dsimp only
        split
        · exact readEnum_withoutComments ..
        · simp [Step.bare, ← hcode]
    · simp [Step.bare]
  · simp [Step.bare]
  · split <;> simp [Step.bare]
  · simp [Step.bare]

theorem withoutComments_of_suffix {tokens rest : List Token}
    (h : rest <:+ withoutComments tokens) : withoutComments rest = rest := by
  refine List.filter_eq_self.2 fun token htoken => ?_
  exact (List.mem_filter.1 (h.mem htoken)).2

/-- Reading all tokens gives the same outline without the comments, if both report open braces at the
same place. -/
theorem scanFrom_withoutComments (final : Position) (state : ScanState) (other : DocBlock)
    (tokens : List Token) :
    (scanFrom final ⟨state.scopes, other⟩ (withoutComments tokens)).bare =
      (scanFrom final state tokens).bare := by
  fun_induction scanFrom final state tokens generalizing other with
  | case1 state hfinish => simp [scanFrom, hfinish]
  | case2 state error hfinish => simp [scanFrom, hfinish]
  | case3 state token rest result =>
    rename_i ih
    cases htoken : token.isComment with
    | true =>
      obtain ⟨comment, hkind⟩ := token.exists_comment htoken
      have hresult : result =
          { state := { state with doc := state.doc.observe comment token.position.line }, rest } := by
        simp [result, step, hkind]
      rw [hresult] at ih ⊢
      rw [withoutComments_cons_comment htoken]
      simpa using ih other
    | false =>
      have hsame := step_withoutComments state.scopes state.doc other htoken rest
      have hsuffix := step_suffix ⟨state.scopes, other⟩ token (withoutComments rest)
      simp only [Step.bare, Step.mk.injEq, ScanState.mk.injEq, and_true,
        withoutComments_of_suffix hsuffix] at hsame
      obtain ⟨hscopes, hfound, hrest⟩ := hsame
      rw [withoutComments_cons_code htoken, scanFrom, Outline.bare_append, Outline.bare_append, hfound]
      congr 1
      rw [hrest, ← ih (step ⟨state.scopes, other⟩ token (withoutComments rest)).state.doc]
      rw [← hscopes]

/-- The place at which open braces are reported: that of the last token. -/
def endPosition (tokens : List Token) : Position :=
  (tokens.getLast?.map (·.position)).getD .start

/-- The diagnostic for braces that are still open, if there are any. -/
def unclosedAt (final : Position) (message : Option String) : List Diagnostic :=
  message.toList.map fun message => { kind := .unbalancedScope, message, position := final }

/-- Open braces are reported last, and nothing else depends on the place for that report. -/
theorem scanFrom_final (state : ScanState) (tokens : List Token) :
    ∃ enums problems unclosed, ∀ final,
      scanFrom final state tokens = ⟨enums, problems ++ unclosedAt final unclosed⟩ := by
  fun_induction scanFrom Position.start state tokens with
  | case1 state hfinish => exact ⟨[], [], none, fun final => by simp [scanFrom, hfinish, unclosedAt]⟩
  | case2 state error hfinish =>
    refine ⟨[], [], some error.message, fun final => ?_⟩
    simp [scanFrom, hfinish, unclosedAt, Outline.unbalanced]
  | case3 state token rest result =>
    rename_i ih
    obtain ⟨enums, problems, unclosed, hrest⟩ := ih
    refine ⟨result.found.enums ++ enums, result.found.diagnostics ++ problems, unclosed, ?_⟩
    intro final
    rw [scanFrom, hrest final, List.append_assoc]
    rfl

/-- Comments never influence structure: with and without the comments, a list of tokens has the same
enums, apart from their documentation and the comments behind their enumerators, and the same
diagnostics, apart from the place at which braces that are still open are reported. -/
theorem scanTokens_withoutComments (tokens : List Token) :
    (scanTokens (withoutComments tokens)).enums.map RawEnum.bare =
        (scanTokens tokens).enums.map RawEnum.bare ∧
      ∃ problems unclosed,
        (scanTokens tokens).diagnostics = problems ++ unclosedAt (endPosition tokens) unclosed ∧
        (scanTokens (withoutComments tokens)).diagnostics =
          problems ++ unclosedAt (endPosition (withoutComments tokens)) unclosed := by
  obtain ⟨enums, problems, unclosed, hfinal⟩ := scanFrom_final {} tokens
  have hsame : (scanTokens (withoutComments tokens)).bare =
      (scanFrom (endPosition (withoutComments tokens)) {} tokens).bare :=
    scanFrom_withoutComments _ {} [] tokens
  have htokens : scanTokens tokens = ⟨enums, problems ++ unclosedAt (endPosition tokens) unclosed⟩ :=
    hfinal _
  rw [hfinal] at hsame
  refine ⟨?_, problems, unclosed, ?_, ?_⟩
  · rw [htokens]
    exact congrArg Outline.enums hsame
  · rw [htokens]
  · exact congrArg Outline.diagnostics hsame

end EnumConverter.Scan
