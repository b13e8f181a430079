import EnumConverter.Proofs.Build.Declarations
import EnumConverter.Proofs.Lexer.Partition
import EnumConverter.Proofs.Scan.Words

namespace EnumConverter

open Source

/-- Tokens stand one behind the other, the first of them not before the place where reading starts. -/
theorem Source.Cursor.pairwise_tokens (here : Cursor) (input : List Char) :
    (here.tokens input).Pairwise (·.position.Before ·.position) ∧
      ∀ token ∈ here.tokens input,
        token.position = here.position ∨ here.position.Before token.position := by
  fun_induction Cursor.tokens here input with
  | case1 here => simp
  | case2 here c cs lexeme ih =>
    obtain ⟨hpairwise, hbehind⟩ := ih
    have hforward : here.position.Before (here.past lexeme).position := by
      rw [Cursor.position_past]
      exact Position.before_after _ (Lexeme.text_ne_nil _ _ _)
    have hlater : ∀ token ∈ (here.past lexeme).tokens lexeme.rest,
        here.position.Before token.position := by
      intro token htoken
      obtain hsame | hbefore := hbehind token htoken
      · rwa [hsame]
      · exact hforward.trans hbefore
    cases htoken : here.token? lexeme with
    | none => exact ⟨hpairwise, fun token hmem => .inr (hlater token hmem)⟩
    | some token =>
      obtain ⟨kind, -, rfl⟩ := Option.map_eq_some_iff.1 htoken
      refine ⟨List.pairwise_cons.2 ⟨hlater, hpairwise⟩, ?_⟩
      intro token hmem
      obtain rfl | hmem := List.mem_cons.1 hmem
      · exact .inl rfl
      · exact .inr (hlater token hmem)

/-- A word and its place. -/
abbrev PlacedWord := String × Position

/-- The word that a token is, if it is one. -/
def Source.Token.word? (token : Token) : Option PlacedWord :=
  token.ident?.map (·, token.position)

/-- The words among tokens. -/
def Source.wordsOf (tokens : List Token) : List PlacedWord :=
  tokens.filterMap Token.word?

theorem Source.wordsOf_sublist {tokens other : List Token} (h : tokens <:+ other) :
    (wordsOf tokens).Sublist (wordsOf other) :=
  h.sublist.filterMap _

theorem Source.mem_wordsOf {tokens : List Token} {word : PlacedWord} (h : word ∈ wordsOf tokens) :
    ∃ token ∈ tokens, token.kind = .ident word.1 ∧ token.position = word.2 := by
  obtain ⟨token, htoken, hword⟩ := List.mem_filterMap.1 h
  obtain ⟨name, hname, rfl⟩ := Option.map_eq_some_iff.1 hword
  exact ⟨token, htoken, Token.kind_of_ident? hname, rfl⟩

theorem Source.pairwise_wordsOf_tokenize (source : String) :
    (wordsOf (tokenize source)).Pairwise (·.2.Before ·.2) := by
  rw [wordsOf, List.pairwise_filterMap]
  refine (Cursor.pairwise_tokens {} source.toList).1.imp ?_
  intro first second hbefore word hword other hother
  obtain ⟨name, -, rfl⟩ := Option.map_eq_some_iff.1 hword
  obtain ⟨name, -, rfl⟩ := Option.map_eq_some_iff.1 hother
  exact hbefore

namespace Scan

/-- The word that an enumerator is. -/
def RawEnumerator.word (enumerator : RawEnumerator) : PlacedWord :=
  (enumerator.name, enumerator.position)

/-- The words that an enum uses: its keyword and its enumerators. -/
def RawEnum.words (raw : RawEnum) : List PlacedWord :=
  ("enum", raw.position) :: raw.enumerators.map RawEnumerator.word

/-- The words that the enums of an outline use, enum by enum. -/
def Outline.words (outline : Outline) : List PlacedWord :=
  outline.enums.flatMap RawEnum.words

theorem Outline.words_append (first second : Outline) :
    (first ++ second).words = first.words ++ second.words := by
  simp [words]

theorem words_onComment (state : BodyState) (comment : Comment) (line : Nat) :
    (state.onComment comment line).enumerators.map RawEnumerator.word =
      state.enumerators.map RawEnumerator.word := by
  unfold BodyState.onComment
  split
  · rfl
  · rename_i latest earlier hstate
    split
    · rw [hstate]
      rfl
    · rfl

/-- The enumerators of a body, with those that were read before, are words in front of what the body
leaves. -/
theorem words_readBody (state : BodyState) (tokens : List Token) :
    ((readBody state tokens).enumerators.map RawEnumerator.word ++
        wordsOf (readBody state tokens).rest).Sublist
      (state.enumerators.reverse.map RawEnumerator.word ++ wordsOf tokens) := by
  fun_induction readBody state tokens with
  | case1 state => exact List.Sublist.refl _
  | case2 state token rest comment _ ih =>
    have hrest := wordsOf_sublist (List.suffix_cons token rest)
    rw [List.map_reverse, words_onComment, ← List.map_reverse] at ih
    exact ih.trans (hrest.append_left _)
  | case3 state token rest => exact (wordsOf_sublist (List.suffix_cons token rest)).append_left _
  | case4 state token rest => exact List.Sublist.refl _
  | case5 state token rest _ _ _ ih =>
    refine ih.trans ?_
    obtain hsame | ⟨name, hident, hnew⟩ := enumerators_onCode state token (skipComments rest).head?
    · rw [hsame]
      exact (wordsOf_sublist (List.suffix_cons token rest)).append_left _
    · have hword : token.word? = some (name, token.position) := by
        rw [Token.word?, hident]
        rfl
      have hwords : wordsOf (token :: rest) = (name, token.position) :: wordsOf rest := by
        rw [wordsOf, List.filterMap_cons_some hword]
        rfl
      rw [hnew, hwords, List.reverse_cons, List.map_append, List.append_assoc]
      exact List.Sublist.refl _

/-- The words of a list of tokens in which a step uses some, and leaves others. -/
def Step.UsesWords (result : Step) (words : List PlacedWord) : Prop :=
  (result.found.words ++ wordsOf result.rest).Sublist words

/-- A step that finds no enum only goes on behind words. -/
theorem Step.usesWords_of_words_eq_nil {result : Step} {rest : List Token}
    (hnone : result.found.words = []) (hrest : result.rest <:+ rest) :
    result.UsesWords (wordsOf rest) := by
  rw [Step.UsesWords, hnone]
  exact wordsOf_sublist hrest

/-- An enum uses its keyword, and behind it only words of its body. -/
theorem readEnum_usesWords (state : ScanState) (position : Position) (isTypedef : Bool)
    (rest : List Token) :
    (readEnum state position isTypedef rest).UsesWords (("enum", position) :: wordsOf rest) := by
  have hsuffix := enumBody_suffix rest
  have hread := enumRead_readEnum state position isTypedef rest
  generalize readEnum state position isTypedef rest = result at hread ⊢
  cases hread with
  | passed hbody => exact (wordsOf_sublist (hbody ▸ hsuffix)).cons _
  | @defined _ brace inside hbody _ =>
    rw [hbody] at hsuffix
    have hinside : inside <:+ rest := (List.suffix_cons brace inside).trans hsuffix
    have hwords := (words_readBody {} inside).trans (wordsOf_sublist hinside)
    -- The alias behind an unnamed enum is left out.
    have hafter := wordsOf_sublist
      (nameBehind_suffix isTypedef (enumNames rest).getLast? (readBody {} inside))
    simp only [Step.UsesWords, Outline.words, Outline.enums_append, enums_bodyProblems,
      List.nil_append, List.flatMap_singleton]
    exact ((hafter.append_left _).trans hwords).cons_cons _

/-- A step uses words of the tokens that it reads, and it goes on behind them. -/
theorem step_usesWords (state : ScanState) (token : Token) (rest : List Token) :
    (step state token rest).UsesWords (wordsOf (token :: rest)) := by
  have hrest := (step_suffix state token rest).trans (List.suffix_cons token rest)
  have hadvance := advance_step state token rest
  generalize step state token rest = result at hadvance hrest ⊢
  cases hadvance with
  | namespaceWord | typeWord => exact Step.usesWords_of_words_eq_nil (by simp [Outline.words]) hrest
  | enum henters => exact (readEnum_usesWords ..).trans (wordsOf_sublist henters.suffix)
  | comment | opening | closing | unexpected | skipped => exact wordsOf_sublist hrest

/-- A scan uses words of the tokens that it reads, in their order. -/
theorem words_scanFrom (final : Position) (state : ScanState) (tokens : List Token) :
    (scanFrom final state tokens).words.Sublist (wordsOf tokens) := by
  fun_induction scanFrom final state tokens with
  | case1 => exact List.nil_sublist _
  | case2 => exact List.nil_sublist _
  | case3 state token rest result ih =>
    rw [Outline.words_append]
    exact (ih.append_left _).trans (step_usesWords state token rest)

theorem words_scan (source : String) :
    (scan source).words.Sublist (wordsOf (tokenize source)) :=
  words_scanFrom _ _ _

theorem pairwise_words_scan (source : String) :
    (scan source).words.Pairwise (·.2.Before ·.2) :=
  (pairwise_wordsOf_tokenize source).sublist (words_scan source)

end Scan

open Scan

theorem pairwise_position_enums (source : String) :
    (scan source).enums.Pairwise fun a b => a.position.Before b.position := by
  have hwords := pairwise_words_scan source
  rw [Outline.words, List.pairwise_flatMap] at hwords
  refine hwords.2.imp ?_
  intro a b hall
  exact hall ("enum", a.position) (by simp [RawEnum.words]) ("enum", b.position)
    (by simp [RawEnum.words])

/-- The lines of an enum and its enumerators come in order. -/
theorem Scan.RawEnum.Declares.pairwise_lines {source : String} {marker : Annotation.Marker}
    {raw : RawEnum} (hraw : raw ∈ (scan source).enums) {declaration : Declaration}
    (h : raw.Declares marker declaration) :
    (declaration.line :: declaration.enumerators.map (·.line)).Pairwise (· ≤ ·) := by
  have hwords : raw.words.Pairwise (·.2.Before ·.2) := by
    have hall := pairwise_words_scan source
    rw [Outline.words, List.pairwise_flatMap] at hall
    exact hall.1 raw hraw
  have hlines : declaration.line :: declaration.enumerators.map (·.line) =
      (("enum", raw.position) ::
        (firstOccurrences (·.name) raw.enumerators).map RawEnumerator.word).map (·.2.line) := by
    rw [h.line, h.enumerators, List.map_map, List.map_cons, List.map_map]
    rfl
  have hkept : (("enum", raw.position) ::
      (firstOccurrences (·.name) raw.enumerators).map RawEnumerator.word).Sublist raw.words :=
    ((filterEarlier_sublist _ _).map _).cons_cons _
  rw [hlines, List.pairwise_map]
  refine (hwords.sublist hkept).imp ?_
  intro word other hbefore
  obtain hline | ⟨hline, -⟩ := hbefore
  · exact Nat.le_of_lt hline
  · exact Nat.le_of_eq hline

/-- Every enum that is found stands at a word `enum` of the source and every enumerator at the word that
names it. The words are used in their order, enum by enum, so that none is used twice. The declarations
are those of some of the enums, in the same order, and their lines come in order. -/
theorem scan_words_increasing (source : String) :
    (∀ raw ∈ (scan source).enums,
      ∃ token ∈ tokenize source, token.kind = .ident "enum" ∧ token.position = raw.position) ∧
    (∀ raw ∈ (scan source).enums, ∀ enumerator ∈ raw.enumerators,
      ∃ token ∈ tokenize source,
        token.kind = .ident enumerator.name ∧ token.position = enumerator.position) ∧
    ((scan source).enums.flatMap fun raw =>
      raw.position :: raw.enumerators.map (·.position)).Pairwise Position.Before ∧
    ∀ settings : BuildSettings,
      (∃ raws, raws.Sublist (scan source).enums ∧
        raws.Pairwise (fun a b => a.position.Before b.position) ∧
        List.Forall₂ (fun raw declaration => raw.Declares settings.marker declaration) raws
          (build settings source).declarations) ∧
      ∀ declaration ∈ (build settings source).declarations,
        (declaration.line :: declaration.enumerators.map (·.line)).Pairwise (· ≤ ·) := by
  have hmem : ∀ raw ∈ (scan source).enums, ∀ word ∈ raw.words,
      ∃ token ∈ tokenize source, token.kind = .ident word.1 ∧ token.position = word.2 :=
    fun raw hraw word hword =>
      mem_wordsOf ((words_scan source).subset (List.mem_flatMap.2 ⟨raw, hraw, hword⟩))
  refine ⟨?_, ?_, ?_, ?_⟩
  · intro raw hraw
    exact hmem raw hraw ("enum", raw.position) (by simp [RawEnum.words])
  · intro raw hraw enumerator henumerator
    exact hmem raw hraw enumerator.word
      (List.mem_cons_of_mem _ (List.mem_map_of_mem henumerator))
  · have hpositions : ((scan source).enums.flatMap fun raw =>
        raw.position :: raw.enumerators.map (·.position)) = (scan source).words.map (·.2) := by
      rw [Outline.words, List.map_flatMap]
      congr 1
      funext raw
      rw [RawEnum.words, List.map_cons, List.map_map]
      rfl
    rw [hpositions, List.pairwise_map]
    exact pairwise_words_scan source
  · intro settings
    have hsublist : (declaredEnums settings (scan source).enums).Sublist (scan source).enums :=
      filterEarlier_sublist _ _
    refine ⟨⟨_, hsublist, (pairwise_position_enums source).sublist hsublist,
      forall₂_declarations settings _⟩, ?_⟩
    intro declaration hdeclaration
    obtain ⟨raw, hraw, hdeclares⟩ := exists_declares settings _ declaration hdeclaration
    exact hdeclares.pairwise_lines (mem_declaredEnums settings hraw).1

end EnumConverter
