import EnumConverter.Proofs.Body.Passage

namespace EnumConverter.Scan

open Source

/-- A list of template arguments with the name in front of it. Its arguments do not start with an angle
or an equals sign, which would make an operator of the angle in front of them. -/
inductive TemplateList (arguments : List Token) : List Token → Prop
  | list {name less greater : Token} (hname : name.ident?.isSome = true)
      (hless : less.isPunct '<' = true)
      (hstart : ∀ token ∈ arguments.head?, token.isPunct '<' = false ∧ token.isPunct '=' = false)
      (hgreater : greater.isPunct '>' = true) :
      TemplateList arguments (name :: less :: (arguments ++ [greater]))

/-- What may stand between the angles of a list of template arguments. -/
inductive TemplateArguments : List Token → Prop
  | nil : TemplateArguments []
  | plain {token : Token} {rest : List Token} (htoken : isPlain token = true)
      (hrest : TemplateArguments rest) : TemplateArguments (token :: rest)
  | comma {comma : Token} {rest : List Token} (hcomma : comma.isPunct ',' = true)
      (hrest : TemplateArguments rest) : TemplateArguments (comma :: rest)
  | group {pair : Char × Char} {group rest : List Token} (hpair : pair ∈ bracketPairs)
      (hgroup : Enclosed pair group) (hrest : TemplateArguments rest) :
      TemplateArguments (group ++ rest)
  | list {arguments list rest : List Token} (harguments : TemplateArguments arguments)
      (hlist : TemplateList arguments list) (hrest : TemplateArguments rest) :
      TemplateArguments (list ++ rest)

/-- What may stand behind the equals sign of an enumerator, or behind a part of it whose last token is
an identifier if the flag says so. -/
inductive Initializer : Bool → List Token → Prop
  | nil (afterIdent : Bool) : Initializer afterIdent []
  | plain {afterIdent : Bool} {token : Token} {rest : List Token} (htoken : isPlain token = true)
      (hrest : Initializer token.ident?.isSome rest) : Initializer afterIdent (token :: rest)
  | group {afterIdent : Bool} {pair : Char × Char} {group rest : List Token}
      (hpair : pair ∈ bracketPairs) (hgroup : Enclosed pair group) (hrest : Initializer false rest) :
      Initializer afterIdent (group ++ rest)
  /-- A shift to the left, or less than or equal. -/
  | operator {afterIdent : Bool} {less second : Token} {rest : List Token}
      (hless : less.isPunct '<' = true)
      (hsecond : second.isPunct '<' = true ∨ second.isPunct '=' = true)
      (hrest : Initializer false rest) : Initializer afterIdent (less :: second :: rest)
  /-- Less than, with an operand on its left that does not end with an identifier. -/
  | less {less : Token} {rest : List Token} (hless : less.isPunct '<' = true)
      (hrest : Initializer false rest) : Initializer false (less :: rest)
  | greater {afterIdent : Bool} {greater : Token} {rest : List Token}
      (hgreater : greater.isPunct '>' = true) (hrest : Initializer false rest) :
      Initializer afterIdent (greater :: rest)
  | list {afterIdent : Bool} {arguments list rest : List Token}
      (harguments : TemplateArguments arguments) (hlist : TemplateList arguments list)
      (hrest : Initializer false rest) : Initializer afterIdent (list ++ rest)

theorem TemplateList.mem {arguments list : List Token} (h : TemplateList arguments list)
    {token : Token} (htoken : token ∈ arguments) : token ∈ list := by
  obtain ⟨hname, hless, hstart, hgreater⟩ := h
  simp [htoken]

variable (state : BodyState) {next : Option Token}

theorem kind_of_isPunct {token : Token} {c : Char} (h : token.isPunct c = true) :
    token.kind = .punct c :=
  of_decide_eq_true h

theorem isPlain_of_ident? {token : Token} (h : token.ident?.isSome = true) :
    isPlain token = true := by
  obtain ⟨kind, position⟩ := token
  cases kind <;> simp_all [Token.ident?, isPlain, Token.isPunct]

theorem BodyState.onCode_less {less : Token} (hdepth : state.depth = 0)
    (hnamed : state.expectsName = false) (hless : less.isPunct '<' = true) :
    state.onCode less next = { state with
      angles := state.angles + (if state.opensTemplate next then 1 else 0), afterIdent := false } := by
  rw [onCode, kind_of_isPunct hless]
  cases state.opensTemplate next <;>
    simp [hdepth, hnamed, Token.ident?, kind_of_isPunct hless]

/-- An angle opens no template arguments if no name stands in front of it. -/
theorem leads_less {less : Token} (hdepth : state.depth = 0) (hnamed : state.expectsName = false)
    (hafter : state.afterIdent = false) (hless : less.isPunct '<' = true) :
    Leads state [less] { state with afterIdent := false } := by
  refine leads_token state (isComment_of_isPunct hless)
    (fun _ => by simp [Token.isPunct, kind_of_isPunct hless]) fun next => ?_
  rw [state.onCode_less hdepth hnamed hless]
  simp [BodyState.opensTemplate, hafter]

theorem leads_angle {less second : Token} {tail : List Token} {after : BodyState}
    (hless : less.isPunct '<' = true) (hcode : second.isComment = false)
    (h : Leads (state.onCode less (some second)) (second :: tail) after) :
    Leads state (less :: second :: tail) after := by
  intro rest
  rw [List.cons_append, readBody_code (isComment_eq_false_iff.1 (isComment_of_isPunct hless))
    (fun _ => by simp [Token.isPunct, kind_of_isPunct hless]), List.cons_append,
    show skipComments (second :: (tail ++ rest)) = second :: (tail ++ rest) by
      simp [skipComments, hcode]]
  exact h rest

theorem leads_equals {equals : Token} (hnamed : state.expectsName = false)
    (hequals : equals.isPunct '=' = true) : Leads state [equals] { state with afterIdent := false } := by
  have hkind := kind_of_isPunct hequals
  have hplain : isPlain equals = true := by simp [isPlain, Token.isPunct, hkind]
  have hread := leads_plain state (isComment_of_isPunct hequals) hnamed hplain
  rwa [BodyState.behind, Token.ident?, hkind] at hread

theorem leads_operator {less second : Token} (hdepth : state.depth = 0)
    (hnamed : state.expectsName = false) (hless : less.isPunct '<' = true)
    (hsecond : second.isPunct '<' = true ∨ second.isPunct '=' = true) :
    Leads state [less, second] { state with afterIdent := false } := by
  have hcode : second.isComment = false := by
    obtain hsecond | hsecond := hsecond <;> exact isComment_of_isPunct hsecond
  refine leads_angle state hless hcode ?_
  rw [state.onCode_less hdepth hnamed hless]
  have hopens : state.opensTemplate (some second) = false := by
    obtain hsecond | hsecond := hsecond <;> simp [BodyState.opensTemplate, hsecond]
  rw [hopens]
  obtain hsecond | hsecond := hsecond
  · exact leads_less { state with afterIdent := false } hdepth hnamed rfl hsecond
  · exact leads_equals { state with afterIdent := false } hnamed hsecond

theorem leads_greater {greater : Token} (hdepth : state.depth = 0)
    (hgreater : greater.isPunct '>' = true) :
    Leads state [greater] { state with angles := state.angles - 1, afterIdent := false } := by
  have hkind := kind_of_isPunct hgreater
  refine leads_token state (isComment_of_isPunct hgreater) (fun _ => by simp [Token.isPunct, hkind])
    fun next => ?_
  simp [BodyState.onCode, hkind, hdepth, Token.ident?]

/-- Outside brackets a comma separates enumerators, unless it stands in template arguments. -/
theorem leads_comma {comma : Token} (hdepth : state.depth = 0) (hcomma : comma.isPunct ',' = true) :
    Leads state [comma] { state with
      expectsName := state.expectsName || decide (state.angles = 0), afterIdent := false } := by
  have hkind := kind_of_isPunct hcomma
  refine leads_token state (isComment_of_isPunct hcomma) (fun _ => by simp [Token.isPunct, hkind])
    fun next => ?_
  by_cases hangles : state.angles = 0 <;>
    simp [BodyState.onCode, hkind, hdepth, hangles, Token.ident?]

theorem leads_comma_inside {comma : Token} (hdepth : state.depth = 0)
    (hnamed : state.expectsName = false) (hangles : state.angles ≠ 0)
    (hcomma : comma.isPunct ',' = true) : Leads state [comma] { state with afterIdent := false } := by
  simpa [hnamed, hangles] using leads_comma state hdepth hcomma

/-- A list of template arguments leaves nothing behind if its arguments are closed in themselves. -/
theorem leads_templateList {arguments list : List Token} (h : TemplateList arguments list)
    (hdepth : state.depth = 0) (hnamed : state.expectsName = false)
    (hcode : ∀ token ∈ list, token.isComment = false)
    (hinside : ∃ afterIdent, Leads { state with angles := state.angles + 1, afterIdent := false }
      arguments { state with angles := state.angles + 1, afterIdent }) :
    Leads state list { state with afterIdent := false } := by
  obtain ⟨hname, hless, hstart, hgreater⟩ := h
  rename_i name less greater
  obtain ⟨afterIdent, hinside⟩ := hinside
  obtain ⟨second, tail, hsecond⟩ := List.exists_cons_of_ne_nil
    (List.append_ne_nil_of_right_ne_nil arguments (List.cons_ne_nil greater []))
  have hoperand : second.isPunct '<' = false ∧ second.isPunct '=' = false := by
    cases arguments with
    | nil =>
      obtain ⟨rfl, -⟩ : greater = second ∧ [] = tail := by simpa using hsecond
      simp [Token.isPunct, kind_of_isPunct hgreater]
    | cons first arguments =>
      obtain ⟨rfl, -⟩ : first = second ∧ arguments ++ [greater] = tail := by simpa using hsecond
      exact hstart first rfl
  have hopens : (state.behind name).opensTemplate (some second) = true := by
    simp [BodyState.opensTemplate, BodyState.behind, hname, hoperand]
  have hfirst : Leads state [name] (state.behind name) :=
    leads_plain state (hcode name (by simp)) hnamed (isPlain_of_ident? hname)
  have hrest : Leads (state.behind name) (less :: second :: tail) { state with afterIdent := false } := by
    refine leads_angle _ hless (hcode second (by rw [hsecond]; simp)) ?_
    rw [(state.behind name).onCode_less hdepth hnamed hless, hopens, ← hsecond]
    exact hinside.append (leads_greater _ hdepth hgreater)
  rw [hsecond]
  exact hfirst.append hrest

theorem leads_templateArguments {arguments : List Token} (h : TemplateArguments arguments)
    (hdepth : state.depth = 0) (hnamed : state.expectsName = false) (hangles : state.angles ≠ 0)
    (hcode : ∀ token ∈ arguments, token.isComment = false) :
    ∃ afterIdent, Leads state arguments { state with afterIdent } := by
  induction h generalizing state with
  | nil => exact ⟨state.afterIdent, Leads.nil state⟩
  | plain htoken _ ih =>
    obtain ⟨hfirst, hrest⟩ := List.forall_mem_cons.1 hcode
    obtain ⟨afterIdent, hmore⟩ := ih (state.behind _) hdepth hnamed hangles hrest
    exact ⟨afterIdent, (leads_plain state hfirst hnamed htoken).append hmore⟩
  | comma hcomma _ ih =>
    obtain ⟨-, hrest⟩ := List.forall_mem_cons.1 hcode
    obtain ⟨afterIdent, hmore⟩ :=
      ih { state with afterIdent := false } hdepth hnamed hangles hrest
    exact ⟨afterIdent, (leads_comma_inside state hdepth hnamed hangles hcomma).append hmore⟩
  | group hpair hgroup _ ih =>
    obtain ⟨hfirst, hrest⟩ := List.forall_mem_append.1 hcode
    obtain ⟨afterIdent, hmore⟩ :=
      ih { state with afterIdent := false } hdepth hnamed hangles hrest
    exact ⟨afterIdent, (leads_group state hpair hgroup hfirst).append hmore⟩
  | list _ hlist _ iharguments ih =>
    obtain ⟨hfirst, hrest⟩ := List.forall_mem_append.1 hcode
    obtain ⟨afterIdent, hmore⟩ :=
      ih { state with afterIdent := false } hdepth hnamed hangles hrest
    have hinside := iharguments { state with angles := state.angles + 1, afterIdent := false }
      hdepth hnamed (Nat.succ_ne_zero _) fun token htoken => hfirst token (hlist.mem htoken)
    exact ⟨afterIdent, (leads_templateList state hlist hdepth hnamed hfirst hinside).append hmore⟩

/-- An initializer leaves no angle open. -/
theorem leads_initializer {afterIdent : Bool} {tokens : List Token}
    (h : Initializer afterIdent tokens) (hdepth : state.depth = 0)
    (hnamed : state.expectsName = false) (hangles : state.angles = 0)
    (hafter : state.afterIdent = afterIdent)
    (hcode : ∀ token ∈ tokens, token.isComment = false) :
    ∃ afterIdent, Leads state tokens { state with afterIdent } := by
  induction h generalizing state with
  | nil => exact ⟨state.afterIdent, Leads.nil state⟩
  | plain htoken _ ih =>
    obtain ⟨hfirst, hrest⟩ := List.forall_mem_cons.1 hcode
    obtain ⟨afterIdent, hmore⟩ := ih (state.behind _) hdepth hnamed hangles rfl hrest
    exact ⟨afterIdent, (leads_plain state hfirst hnamed htoken).append hmore⟩
  | group hpair hgroup _ ih =>
    obtain ⟨hfirst, hrest⟩ := List.forall_mem_append.1 hcode
    obtain ⟨afterIdent, hmore⟩ :=
      ih { state with afterIdent := false } hdepth hnamed hangles rfl hrest
    exact ⟨afterIdent, (leads_group state hpair hgroup hfirst).append hmore⟩
  | operator hless hsecond _ ih =>
    obtain ⟨-, hrest⟩ := List.forall_mem_cons.1 (List.forall_mem_cons.1 hcode).2
    obtain ⟨afterIdent, hmore⟩ :=
      ih { state with afterIdent := false } hdepth hnamed hangles rfl hrest
    exact ⟨afterIdent, (leads_operator state hdepth hnamed hless hsecond).append hmore⟩
  | less hless _ ih =>
    obtain ⟨-, hrest⟩ := List.forall_mem_cons.1 hcode
    obtain ⟨afterIdent, hmore⟩ :=
      ih { state with afterIdent := false } hdepth hnamed hangles rfl hrest
    exact ⟨afterIdent, (leads_less state hdepth hnamed hafter hless).append hmore⟩
  | greater hgreater _ ih =>
    obtain ⟨-, hrest⟩ := List.forall_mem_cons.1 hcode
    obtain ⟨afterIdent, hmore⟩ :=
      ih { state with afterIdent := false } hdepth hnamed hangles rfl hrest
    have hnone : state.angles - 1 = state.angles := by omega
    exact ⟨afterIdent, (hnone ▸ leads_greater state hdepth hgreater).append hmore⟩
  | list harguments hlist _ ih =>
    obtain ⟨hfirst, hrest⟩ := List.forall_mem_append.1 hcode
    obtain ⟨afterIdent, hmore⟩ :=
      ih { state with afterIdent := false } hdepth hnamed hangles rfl hrest
    have hinside := leads_templateArguments
      { state with angles := state.angles + 1, afterIdent := false } harguments hdepth hnamed
      (Nat.succ_ne_zero _) fun token htoken => hfirst token (hlist.mem htoken)
    exact ⟨afterIdent, (leads_templateList state hlist hdepth hnamed hfirst hinside).append hmore⟩

/-- Attributes in brackets, any number of them. -/
inductive Attributes : List Token → Prop
  | nil : Attributes []
  | cons {group rest : List Token} (hgroup : Enclosed ('[', ']') group) (hrest : Attributes rest) :
      Attributes (group ++ rest)

/-- An enumerator with the given name. -/
inductive EnumeratorTokens (name : Token) : List Token → Prop
  | bare {attributes : List Token} (hname : name.ident?.isSome = true)
      (hattributes : Attributes attributes) : EnumeratorTokens name (name :: attributes)
  | initialized {attributes initializer : List Token} {equals : Token}
      (hname : name.ident?.isSome = true) (hattributes : Attributes attributes)
      (hequals : equals.isPunct '=' = true) (hne : initializer ≠ [])
      (hinitializer : Initializer false initializer) :
      EnumeratorTokens name (name :: (attributes ++ equals :: initializer))

/-- The given names as enumerators with commas between them, and perhaps one behind the last. -/
inductive EnumeratorList : List Token → List Token → Prop
  | nil : EnumeratorList [] []
  | last {name : Token} {tokens : List Token} (henumerator : EnumeratorTokens name tokens) :
      EnumeratorList [name] tokens
  | cons {name comma : Token} {tokens names rest : List Token}
      (henumerator : EnumeratorTokens name tokens) (hcomma : comma.isPunct ',' = true)
      (hrest : EnumeratorList names rest) : EnumeratorList (name :: names) (tokens ++ comma :: rest)

theorem leads_attributes {attributes : List Token} (h : Attributes attributes)
    (hcode : ∀ token ∈ attributes, token.isComment = false) :
    ∃ afterIdent, Leads state attributes { state with afterIdent } := by
  induction h generalizing state with
  | nil => exact ⟨state.afterIdent, Leads.nil state⟩
  | cons hgroup _ ih =>
    obtain ⟨hfirst, hrest⟩ := List.forall_mem_append.1 hcode
    obtain ⟨afterIdent, hmore⟩ := ih { state with afterIdent := false } hrest
    exact ⟨afterIdent, (leads_group state (by decide) hgroup hfirst).append hmore⟩

/-- The state in an enumerator that was read as `latest`, with no angle open. -/
def within (latest : RawEnumerator) (earlier : List RawEnumerator) (afterIdent : Bool) : BodyState :=
  { enumerators := latest :: earlier, expectsName := false, afterIdent }

/-- A name that is expected is read. -/
theorem leads_name {name : Token} {text : String} (hname : name.ident? = some text)
    (hdepth : state.depth = 0) (hexpected : state.expectsName = true) :
    Leads state [name] { state with
      enumerators := { name := text, position := name.position } :: state.enumerators
      expectsName := false
      attachedEnd := none
      afterIdent := true } := by
  have hkind := Token.kind_of_ident? hname
  refine leads_token _ (by simp [Token.isComment, Token.comment?, hkind])
    (fun _ => by simp [Token.isPunct, hkind]) fun next => ?_
  simp [BodyState.onCode, hkind, hname, hdepth, hexpected]

/-- An enumerator is read as its name, at the place of the name. -/
theorem leads_enumeratorTokens {name : Token} {tokens : List Token}
    (h : EnumeratorTokens name tokens) (hcode : ∀ token ∈ tokens, token.isComment = false) :
    ∃ found : RawEnumerator, some found.word = name.word? ∧ ∀ earlier,
      ∃ afterIdent, Leads { enumerators := earlier } tokens (within found earlier afterIdent) := by
  obtain ⟨text, hname⟩ : ∃ text, name.ident? = some text :=
    Option.isSome_iff_exists.1 (by cases h <;> assumption)
  refine ⟨{ name := text, position := name.position }, by simp [Token.word?, hname, RawEnumerator.word],
    fun earlier => ?_⟩
  have hfirst := leads_name { enumerators := earlier } hname rfl rfl
  cases h with
  | bare _ hattributes =>
    obtain ⟨-, hrest⟩ := List.forall_mem_cons.1 hcode
    obtain ⟨afterIdent, hmiddle⟩ := leads_attributes
      (within { name := text, position := name.position } earlier true) hattributes hrest
    exact ⟨afterIdent, hfirst.append hmiddle⟩
  | initialized _ hattributes hequals _ hinitializer =>
    obtain ⟨-, hrest⟩ := List.forall_mem_cons.1 hcode
    obtain ⟨hbrackets, hlast⟩ := List.forall_mem_append.1 hrest
    obtain ⟨-, hvalue⟩ := List.forall_mem_cons.1 hlast
    obtain ⟨afterAttributes, hmiddle⟩ := leads_attributes
      (within { name := text, position := name.position } earlier true) hattributes hbrackets
    have hsign := leads_equals
      (within { name := text, position := name.position } earlier afterAttributes) rfl hequals
    obtain ⟨afterIdent, hend⟩ := leads_initializer
      (within { name := text, position := name.position } earlier false) hinitializer
      rfl rfl rfl rfl hvalue
    exact ⟨afterIdent, hfirst.append (hmiddle.append (hsign.append hend))⟩

theorem readBody_within {closing : Token} (hclosing : closing.isPunct '\x7d' = true)
    (latest : RawEnumerator) (earlier : List RawEnumerator) (afterIdent : Bool) (rest : List Token) :
    readBody (within latest earlier afterIdent) (closing :: rest) =
      ⟨earlier.reverse ++ [latest], true, rest⟩ := by
  rw [readBody_close rfl (isComment_eq_false_iff.1 (isComment_of_isPunct hclosing)) hclosing]
  simp [within]

/-- A list of enumerators without comments is read behind the enumerators in front of it. -/
theorem readBody_of_enumeratorList {names tokens : List Token} (h : EnumeratorList names tokens)
    (hcode : ∀ token ∈ tokens, token.isComment = false) {closing : Token}
    (hclosing : closing.isPunct '\x7d' = true) (earlier : List RawEnumerator) :
    ∃ found : List RawEnumerator, found.map (some ·.word) = names.map Token.word? ∧
      ∀ rest, readBody { enumerators := earlier } (tokens ++ closing :: rest) =
        ⟨earlier.reverse ++ found, true, rest⟩ := by
  induction h generalizing earlier with
  | nil =>
    refine ⟨[], rfl, fun rest => ?_⟩
    rw [List.nil_append,
      readBody_close rfl (isComment_eq_false_iff.1 (isComment_of_isPunct hclosing)) hclosing]
    simp
  | last henumerator =>
    obtain ⟨found, hfound, hread⟩ := leads_enumeratorTokens henumerator hcode
    obtain ⟨afterIdent, hread⟩ := hread earlier
    refine ⟨[found], by simp [hfound], fun rest => ?_⟩
    rw [hread, readBody_within hclosing]
  | cons henumerator hcomma _ ih =>
    obtain ⟨hfirst, hrest⟩ := List.forall_mem_append.1 hcode
    obtain ⟨found, hfound, hread⟩ := leads_enumeratorTokens henumerator hfirst
    obtain ⟨afterIdent, hread⟩ := hread earlier
    obtain ⟨others, hothers, hmore⟩ := ih (List.forall_mem_cons.1 hrest).2 (found :: earlier)
    refine ⟨found :: others, by simp [hfound, hothers], fun rest => ?_⟩
    rw [List.append_assoc, hread, List.cons_append]
    refine (leads_comma (within found earlier afterIdent) rfl hcomma _).trans ((hmore rest).trans ?_)
    simp

/-- Enumerators are read exactly. Let a body be a list of enumerators, with comments anywhere. Behind
its opening brace the names of the enumerators are read, in order and each at its place, up to the
closing brace and no further. -/
theorem readBody_enumeratorList {names body : List Token} {closing : Token}
    (h : EnumeratorList names (withoutComments body)) (hclosing : closing.isPunct '\x7d' = true)
    (rest : List Token) :
    (readBody {} (body ++ closing :: rest)).enumerators.map (some ·.word) = names.map Token.word? ∧
      (readBody {} (body ++ closing :: rest)).closed = true ∧
      (readBody {} (body ++ closing :: rest)).rest = rest := by
  obtain ⟨found, hfound, hread⟩ :=
    readBody_of_enumeratorList h isComment_of_mem_withoutComments hclosing []
  obtain ⟨hwords, hclosed, hrest⟩ := readBody_of_withoutComments rest hclosing hread
  exact ⟨hwords.trans hfound, hclosed, hrest⟩

/-- A token on the first line of a text. -/
def onFirstLine (column : Nat) (kind : TokenKind) : Token :=
  ⟨kind, ⟨1, column⟩⟩

/-- A body with an attribute, a template list in another one, a comparison, a comment and a shift. -/
def sampleBody : List Token :=
  tokenize "a [[x]] = n<1, t<u>> < 2, /* b, */ b = m << 1,"

theorem readBody_enumeratorList_sampleBody :
    EnumeratorList [onFirstLine 1 (.ident "a"), onFirstLine 36 (.ident "b")]
        (withoutComments sampleBody) ∧
      (readBody {} (sampleBody ++ [onFirstLine 47 (.punct '\x7d')])).enumerators.map (some ·.word) =
        [some ("a", ⟨1, 1⟩), some ("b", ⟨1, 36⟩)] := by
  have hattribute : Enclosed ('[', ']') (onFirstLine 3 (.punct '[') :: [onFirstLine 4 (.punct '['),
      onFirstLine 5 (.ident "x"), onFirstLine 6 (.punct ']')] ++ [onFirstLine 7 (.punct ']')]) :=
    .group rfl rfl (by decide)
  have hinner : TemplateList [onFirstLine 18 (.ident "u")] (onFirstLine 16 (.ident "t") ::
      onFirstLine 17 (.punct '<') :: ([onFirstLine 18 (.ident "u")] ++ [onFirstLine 19 (.punct '>')])) :=
    .list rfl (by decide) (by decide) (by decide)
  have harguments : TemplateArguments [onFirstLine 13 .number, onFirstLine 14 (.punct ','),
      onFirstLine 16 (.ident "t"), onFirstLine 17 (.punct '<'), onFirstLine 18 (.ident "u"),
      onFirstLine 19 (.punct '>')] :=
    .plain (by decide) (.comma (by decide) (.list (.plain (by decide) .nil) hinner .nil))
  have houter : TemplateList _ (onFirstLine 11 (.ident "n") :: onFirstLine 12 (.punct '<') ::
      ([onFirstLine 13 .number, onFirstLine 14 (.punct ','), onFirstLine 16 (.ident "t"),
        onFirstLine 17 (.punct '<'), onFirstLine 18 (.ident "u"), onFirstLine 19 (.punct '>')] ++
        [onFirstLine 20 (.punct '>')])) := .list rfl (by decide) (by decide) (by decide)
  have hcomparison : Initializer false [onFirstLine 22 (.punct '<'), onFirstLine 24 .number] :=
    .less (by decide) (.plain (by decide) (.nil false))
  have hshift : Initializer false [onFirstLine 40 (.ident "m"), onFirstLine 42 (.punct '<'),
      onFirstLine 43 (.punct '<'), onFirstLine 45 .number] :=
    .plain (by decide) (.operator (by decide) (by decide) (.plain (by decide) (.nil false)))
  have hfirst : EnumeratorTokens (onFirstLine 1 (.ident "a")) _ :=
    .initialized rfl (.cons hattribute .nil)
      (show (onFirstLine 9 (.punct '=')).isPunct '=' = true by decide) (by simp)
      (.list harguments houter hcomparison)
  have hsecond : EnumeratorTokens (onFirstLine 36 (.ident "b")) _ :=
    .initialized rfl .nil (show (onFirstLine 38 (.punct '=')).isPunct '=' = true by decide)
      (by simp) hshift
  have hlist := EnumeratorList.cons hfirst
    (show (onFirstLine 25 (.punct ',')).isPunct ',' = true by decide)
    (.cons hsecond (show (onFirstLine 46 (.punct ',')).isPunct ',' = true by decide) .nil)
  have hbody : EnumeratorList [onFirstLine 1 (.ident "a"), onFirstLine 36 (.ident "b")]
      (withoutComments sampleBody) :=
    (congrArg (EnumeratorList _) (by decide +kernel)).mp hlist
  exact ⟨hbody, (readBody_enumeratorList hbody (by decide) []).1⟩

end EnumConverter.Scan
