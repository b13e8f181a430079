import EnumConverter.Proofs.Scan.Equation
import EnumConverter.Proofs.Scan.Step
import EnumConverter.Proofs.Spelling.Word

namespace EnumConverter

open Source

/-- A segment whose name is a word, and for a namespace one that can name it. -/
structure Segment.Spelled (segment : Segment) : Prop where
  isWord : isIdentifier segment.name.toList = true
  notInline : segment.kind = .namespaceScope → segment.name ≠ "inline"

namespace Source

theorem Lexeme.shape_ofWord_identifier {word : Cut} (h : (ofWord word).shape = .identifier) :
    (ofWord word).text = word.taken := by
  unfold ofWord at h ⊢
  repeat' split
  all_goals simp_all [Lexeme.text]

theorem Lexeme.Opening.of_identifier {fresh : Bool} {c : Char} {cs : List Char} {lexeme : Lexeme}
    (h : Opening fresh c cs lexeme) (hshape : lexeme.shape = .identifier) :
    isIdentifier lexeme.text = true := by
  cases h with
  | word hstart =>
    rw [shape_ofWord_identifier hshape]
    exact isIdentifier_cons.2 ⟨hstart, takeRun_taken_all isIdentRest cs⟩
  | _ => simp at hshape

/-- Every identifier among the tokens is a word. -/
def Words (tokens : List Token) : Prop :=
  ∀ token ∈ tokens, ∀ name, token.ident? = some name → isIdentifier name.toList = true

theorem Words.of_suffix {tokens rest : List Token} (h : Words tokens) (hsuffix : rest <:+ tokens) :
    Words rest :=
  fun token htoken => h token (hsuffix.subset htoken)

theorem Token.kind_of_ident? {token : Token} {name : String} (h : token.ident? = some name) :
    token.kind = .ident name := by
  unfold Token.ident? at h
  split at h <;> simp_all

theorem Cursor.kind?_ident {here : Cursor} {lexeme : Lexeme} {name : String}
    (h : here.kind? lexeme = some (.ident name)) :
    lexeme.shape = .identifier ∧ name = String.ofList lexeme.text := by
  unfold Cursor.kind? at h
  split at h <;> simp_all

theorem words_tokens (here : Cursor) (input : List Char) : Words (here.tokens input) := by
  fun_induction Cursor.tokens here input with
  | case1 => simp [Words]
  | case2 here c cs lexeme =>
    rename_i ih
    have hopening : Lexeme.Opening here.fresh c cs lexeme := Lexeme.opening_next ..
    intro token htoken name hname
    obtain htoken | htoken := List.mem_append.1 htoken
    · obtain ⟨kind, hkind, rfl⟩ := Option.map_eq_some_iff.1 (Option.mem_toList.1 htoken)
      have hident : kind = .ident name := Token.kind_of_ident? hname
      obtain ⟨hshape, rfl⟩ := Cursor.kind?_ident (hident ▸ hkind)
      simpa using hopening.of_identifier hshape
    · exact ih token htoken name hname

end Source

namespace Scan

theorem namespaceName_words {tokens : List Token} (h : Words tokens) :
    ∀ name ∈ (namespaceName tokens).1, isIdentifier name.toList = true ∧ name ≠ "inline" := by
  fun_induction namespaceName tokens with
  | case1 => simp
  | case2 => simp
  | case3 token rest _ ih =>
    exact ih (h.of_suffix ((skipComments_suffix rest).trans (List.suffix_cons ..)))
  | case4 token rest name hident hinline =>
    simpa using ⟨h token (by simp) name hident, hinline⟩
  | case5 token rest name hident hinline tail htail names left hread ih =>
    have hsuffix := (afterPathSeparator?_suffix htail).trans
      ((skipComments_suffix rest).trans (List.suffix_cons token rest))
    rw [hread] at ih
    intro other hother
    obtain rfl | hother := List.mem_cons.1 hother
    · exact ⟨h token (by simp) _ hident, hinline⟩
    · exact ih (h.of_suffix hsuffix) other hother

theorem qualifiedName_words {tokens : List Token} (h : Words tokens) :
    ∀ name ∈ (qualifiedName tokens).1, isIdentifier name.toList = true := by
  fun_induction qualifiedName tokens with
  | case1 => simp
  | case2 => simp
  | case3 => simp
  | case4 token rest name hident => simpa using h token (by simp) name hident
  | case5 token rest name hident _ tail htail names left hread ih =>
    have hsuffix := (afterPathSeparator?_suffix htail).trans
      ((skipTemplateArguments_suffix _).trans
        ((skipComments_suffix rest).trans (List.suffix_cons token rest)))
    rw [hread] at ih
    intro other hother
    obtain rfl | hother := List.mem_cons.1 hother
    · exact h token (by simp) _ hident
    · exact ih (h.of_suffix hsuffix) other hother

theorem readAlias_word {tokens : List Token} (h : Words tokens) :
    ∀ name ∈ (readAlias tokens).1, isIdentifier name.toList = true := by
  have hskip := skipComments_suffix tokens
  unfold readAlias
  split
  · simp
  · rename_i token rest htokens
    rw [htokens] at hskip
    split
    · rename_i name hident
      intro other hother
      obtain rfl : name = other := by simpa using hother
      exact h token (hskip.subset (by simp)) name hident
    · simp

/-- Every enumerator is named by a word. -/
def WordNames (enumerators : List RawEnumerator) : Prop :=
  ∀ enumerator ∈ enumerators, isIdentifier enumerator.name.toList = true

theorem wordNames_onComment {state : BodyState} (h : WordNames state.enumerators) (comment : Comment)
    (line : Nat) : WordNames (state.onComment comment line).enumerators := by
  unfold BodyState.onComment
  split
  · exact h
  · rename_i latest earlier hstate
    rw [hstate] at h
    split
    · intro enumerator henumerator
      obtain rfl | henumerator := List.mem_cons.1 henumerator
      · exact h latest (by simp)
      · exact h enumerator (by simp [henumerator])
    · rw [← hstate] at h
      exact h

/-- A token of code adds at most one enumerator, which it names and to which no comment belongs yet. -/
theorem onCode_cases (state : BodyState) (token : Token) (next : Option Token) :
    ((state.onCode token next).enumerators = state.enumerators ∧
        (state.onCode token next).attachedEnd = state.attachedEnd) ∨
      ∃ name, token.ident? = some name ∧ (state.onCode token next).attachedEnd = none ∧
        (state.onCode token next).enumerators =
          { name, position := token.position } :: state.enumerators := by
  obtain ⟨kind, position⟩ := token
  cases kind with
  | ident name =>
    by_cases hnames : (state.expectsName && state.depth = 0) = true
    · exact .inr ⟨name, rfl, by simp [BodyState.onCode, hnames], by simp [BodyState.onCode, hnames]⟩
    · exact .inl ⟨by simp [BodyState.onCode, hnames], by simp [BodyState.onCode, hnames]⟩
  | punct c =>
    left
    unfold BodyState.onCode
    dsimp only
    repeat' split
    all_goals simp_all
  | _ => exact .inl ⟨rfl, rfl⟩

theorem enumerators_onCode (state : BodyState) (token : Token) (next : Option Token) :
    (state.onCode token next).enumerators = state.enumerators ∨
      ∃ name, token.ident? = some name ∧ (state.onCode token next).enumerators =
        { name, position := token.position } :: state.enumerators := by
  obtain ⟨hsame, -⟩ | ⟨name, hident, -, hnew⟩ := onCode_cases state token next
  · exact .inl hsame
  · exact .inr ⟨name, hident, hnew⟩

theorem readBody_words {state : BodyState} {tokens : List Token} (hstate : WordNames state.enumerators)
    (h : Words tokens) : WordNames (readBody state tokens).enumerators := by
  have hreverse {state : BodyState} (hstate : WordNames state.enumerators) :
      WordNames state.enumerators.reverse :=
    fun enumerator hmem => hstate enumerator (by simpa using hmem)
  fun_induction readBody state tokens with
  | case1 => exact hreverse hstate
  | case2 state token rest comment _ ih =>
    exact ih (wordNames_onComment hstate comment _) (h.of_suffix (List.suffix_cons ..))
  | case3 => exact hreverse hstate
  | case4 => exact hreverse hstate
  | case5 state token rest _ _ _ ih =>
    refine ih ?_ (h.of_suffix (List.suffix_cons ..))
    obtain hsame | ⟨name, hident, hnew⟩ := enumerators_onCode state token (skipComments rest).head?
    · rwa [hsame]
    · rw [hnew]
      intro enumerator hmem
      obtain rfl | hmem := List.mem_cons.1 hmem
      · exact h token (by simp) name hident
      · exact hstate enumerator hmem

/-- Every name that the open braces bring can be written back. -/
def ScopeStack.Spelled (scopes : ScopeStack) : Prop :=
  ∀ scope ∈ scopes, ∀ segment ∈ scope.segments, segment.Spelled

theorem ScopeStack.Spelled.scope {scopes : ScopeStack} (h : scopes.Spelled) :
    ∀ segment ∈ scopes.scope, segment.Spelled := by
  intro segment hsegment
  obtain ⟨level, hlevel, hsegment⟩ := List.mem_flatMap.1 hsegment
  exact h level (List.mem_reverse.1 hlevel) segment hsegment

theorem ScopeStack.Spelled.enter {scopes : ScopeStack} (h : scopes.Spelled) {segments : Scope}
    (hsegments : ∀ segment ∈ segments, segment.Spelled) (line : Nat) :
    (scopes.enter segments line).Spelled := by
  intro level hlevel
  obtain rfl | hlevel := List.mem_cons.1 hlevel
  · exact hsegments
  · exact h level hlevel

/-- An enum as written all of whose names can be written back. -/
structure RawEnum.Spelled (raw : RawEnum) : Prop where
  scope : ∀ segment ∈ raw.scope, segment.Spelled
  name : ∀ name, raw.name = some name → isIdentifier name.toList = true
  enumerators : WordNames raw.enumerators

/-- What a step keeps: the scopes, and what it finds, have names that can be written back. -/
structure Step.Spelled (result : Step) : Prop where
  scopes : result.state.scopes.Spelled
  found : ∀ raw ∈ result.found.enums, raw.Spelled

variable {scopes : ScopeStack} {state : ScanState} {rest : List Token}

theorem spelled_typeSegments {names : List String}
    (h : ∀ name ∈ names, isIdentifier name.toList = true) :
    ∀ segment ∈ names.map (Segment.mk · .typeScope), segment.Spelled := by
  intro segment hsegment
  obtain ⟨name, hname, rfl⟩ := List.mem_map.1 hsegment
  exact ⟨h name hname, by simp⟩

theorem enterBody_spelled (hscopes : scopes.Spelled) {segments : Scope}
    (hsegments : ∀ segment ∈ segments, segment.Spelled) (line : Nat) (tokens : List Token) :
    (enterBody scopes segments line tokens).Spelled := by
  obtain ⟨body, -, h⟩ | h := enterBody_cases scopes segments line tokens
  · exact h ▸ ⟨hscopes.enter hsegments line, by simp⟩
  · exact h ▸ ⟨hscopes, by simp⟩

theorem namespaceScope_spelled (h : Words rest) : ∀ segment ∈ namespaceScope rest, segment.Spelled := by
  have hnames := namespaceName_words (h.of_suffix (skipComments_suffix rest))
  intro segment hsegment
  obtain ⟨name, hname, rfl⟩ := List.mem_map.1 hsegment
  exact ⟨(hnames name hname).1, fun _ => (hnames name hname).2⟩

theorem typeScope_spelled (h : Words rest) : ∀ segment ∈ typeScope rest, segment.Spelled :=
  spelled_typeSegments (qualifiedName_words
    (h.of_suffix ((skipAttributes_suffix _).trans (skipComments_suffix rest))))

theorem readEnum_spelled (hscopes : state.scopes.Spelled) (position : Position) (isTypedef : Bool)
    (h : Words rest) : (readEnum state position isTypedef rest).Spelled := by
  have hnames : ∀ name ∈ enumNames rest, isIdentifier name.toList = true :=
    qualifiedName_words (h.of_suffix (enumName_suffix rest))
  have hread := enumRead_readEnum state position isTypedef rest
  generalize readEnum state position isTypedef rest = result at hread ⊢
  cases hread with
  | passed => exact ⟨hscopes, by simp⟩
  | @defined isScoped brace inside hbody _ =>
    have hsuffix := enumBody_suffix rest
    rw [hbody] at hsuffix
    have hwords : Words inside := h.of_suffix ((List.suffix_cons ..).trans hsuffix)
    refine ⟨hscopes, ?_⟩
    intro raw hraw
    obtain rfl : raw = enumOf state position isTypedef isScoped (enumNames rest) (readBody {} inside) := by
      simpa using hraw
    refine ⟨?_, ?_, readBody_words (by simp [WordNames]) hwords⟩
    · intro segment hsegment
      obtain hsegment | hsegment := List.mem_append.1 hsegment
      · exact hscopes.scope segment hsegment
      · exact spelled_typeSegments (fun name hname => hnames name (List.dropLast_subset _ hname))
          segment hsegment
    · intro name hname
      rw [enumOf] at hname
      obtain halias | hlast := nameBehind_cases isTypedef (enumNames rest).getLast? (readBody {} inside)
      · rw [halias] at hname
        exact readAlias_word (hwords.of_suffix (rest_readBody_suffix {} inside)) name hname
      · rw [hlast] at hname
        exact hnames name (List.mem_of_getLast? hname)

theorem ScopeStack.Spelled.exit (h : scopes.Spelled) {outer : ScopeStack}
    (hexit : scopes.exit = .ok outer) : outer.Spelled := by
  cases scopes with
  | nil => cases hexit
  | cons innermost rest =>
    obtain rfl : rest = outer := Except.ok.inj hexit
    exact fun scope hscope => h scope (List.mem_cons_of_mem _ hscope)

/-- Reading from a token on keeps names that can be written back. -/
theorem step_spelled {token : Token} (hscopes : state.scopes.Spelled) (h : Words (token :: rest)) :
    (step state token rest).Spelled := by
  have hrest : Words rest := h.of_suffix (List.suffix_cons ..)
  have hadvance := advance_step state token rest
  generalize step state token rest = result at hadvance ⊢
  cases hadvance with
  | comment | skipped => exact ⟨hscopes, by simp⟩
  | namespaceWord =>
    rw [readNamespace_eq_enterBody]
    exact enterBody_spelled hscopes (namespaceScope_spelled hrest) _ _
  | typeWord =>
    rw [readType_eq_enterBody]
    exact enterBody_spelled hscopes (typeScope_spelled hrest) _ _
  | enum henters =>
    exact readEnum_spelled hscopes _ _ (h.of_suffix ((List.suffix_cons ..).trans henters.suffix))
  | opening => exact ⟨hscopes.enter (by simp) _, by simp⟩
  | closing _ hexit => exact ⟨hscopes.exit hexit, by simp⟩
  | unexpected => exact ⟨hscopes, by simp [Outline.unbalanced]⟩

theorem scanFrom_spelled (final : Position) {tokens : List Token} (hscopes : state.scopes.Spelled)
    (h : Words tokens) : ∀ raw ∈ (scanFrom final state tokens).enums, raw.Spelled := by
  fun_induction scanFrom final state tokens with
  | case1 => simp
  | case2 => simp [Outline.unbalanced]
  | case3 state token rest result =>
    rename_i ih
    have hstep : result.Spelled := step_spelled hscopes h
    have hsuffix := (step_suffix state token rest).trans (List.suffix_cons token rest)
    intro raw hraw
    obtain hraw | hraw := List.mem_append.1 hraw
    · exact hstep.found raw hraw
    · exact ih hstep.scopes (h.of_suffix hsuffix) raw hraw

/-- Every name in the outline of a source text can be written back. -/
theorem scan_spelled (source : String) : ∀ raw ∈ (scan source).enums, raw.Spelled :=
  scanFrom_spelled _ (by simp [ScopeStack.Spelled]) (words_tokens _ _)

end Scan

end EnumConverter
