import EnumConverter.Proofs.Indexed.Override
import EnumConverter.Proofs.Override.Decoding

namespace EnumConverter.Annotation

open Text

/-- A payload as it stands between its quotes, and without its escapes. The quote behind the payload is
not escaped by its last character. -/
inductive Unescapes : List Char → List Char → Prop
  | nil : Unescapes [] []
  | escaped {c : Char} {raw value : List Char} (hc : c = '"' ∨ c = '\\') (h : Unescapes raw value) :
      Unescapes ('\\' :: c :: raw) (c :: value)
  /-- A backslash before any other character stays. -/
  | backslash {c : Char} {raw value : List Char} (hquote : c ≠ '"') (hbackslash : c ≠ '\\')
      (h : Unescapes (c :: raw) value) : Unescapes ('\\' :: c :: raw) ('\\' :: value)
  | plain {c : Char} {raw value : List Char} (hquote : c ≠ '"') (hbackslash : c ≠ '\\')
      (h : Unescapes raw value) : Unescapes (c :: raw) (c :: value)

variable {cs rest value : List Char}

theorem unescapes_of_readLiteral (h : readLiteral cs = some (value, rest)) :
    ∃ raw, cs = raw ++ '"' :: rest ∧ Unescapes raw value := by
  fun_induction readLiteral cs generalizing value rest with
  | case1 => cases h
  | case2 cs =>
    obtain ⟨rfl, rfl⟩ : [] = value ∧ cs = rest := by simpa using h
    exact ⟨[], rfl, .nil⟩
  | case3 cs ih | case4 cs ih =>
    obtain ⟨⟨payload, left⟩, hread, heq⟩ := Option.map_eq_some_iff.1 h
    obtain ⟨rfl, rfl⟩ := Prod.mk.inj heq
    obtain ⟨raw, rfl, hraw⟩ := ih hread
    exact ⟨_ :: _ :: raw, rfl, .escaped (by simp) hraw⟩
  | case5 c cs hquote hescaped hdouble ih =>
    obtain ⟨⟨payload, left⟩, hread, heq⟩ := Option.map_eq_some_iff.1 h
    obtain ⟨rfl, rfl⟩ := Prod.mk.inj heq
    obtain ⟨raw, rfl, hraw⟩ := ih hread
    refine ⟨c :: raw, rfl, ?_⟩
    by_cases hbackslash : c = '\\'
    · subst hbackslash
      cases raw with
      | nil => exact absurd rfl (hescaped _ rfl)
      | cons d raw =>
        have hnotQuote : d ≠ '"' := fun hd => hescaped _ rfl (congrArg (· :: _) hd)
        have hnotBackslash : d ≠ '\\' := fun hd => hdouble _ rfl (congrArg (· :: _) hd)
        exact .backslash hnotQuote hnotBackslash hraw
    · exact .plain hquote hbackslash hraw

theorem readLiteral_of_unescapes {raw : List Char} (h : Unescapes raw value) (rest : List Char) :
    readLiteral (raw ++ '"' :: rest) = some (value, rest) := by
  induction h with
  | nil => rfl
  | escaped hc _ ih =>
    obtain rfl | rfl := hc <;> simp [readLiteral, ih]
  | backslash hquote hbackslash _ ih =>
    rw [List.cons_append, List.cons_append, readLiteral, ← List.cons_append, ih]
    · rfl
    · decide
    · simp [hquote]
    · simp [hbackslash]
  | plain hquote hbackslash _ ih =>
    rw [List.cons_append, readLiteral, ih]
    · rfl
    · exact hquote
    · simp [hbackslash]
    · simp [hbackslash]

/-- A literal is closed by the first quote that no backslash escapes. -/
theorem readLiteral_eq_some_iff :
    readLiteral cs = some (value, rest) ↔ ∃ raw, cs = raw ++ '"' :: rest ∧ Unescapes raw value := by
  constructor
  · exact unescapes_of_readLiteral
  · rintro ⟨raw, rfl, hraw⟩
    exact readLiteral_of_unescapes hraw rest

/-- The text holds a literal with the payload `value` and the tag of a conversion right behind it. -/
def HoldsOverride (text : List Char) (kind : Conversion) (value : String) : Prop :=
  ∃ before raw after, text = before ++ '"' :: (raw ++ '"' :: (kind.tag.toList ++ after)) ∧
    Unescapes raw value.toList ∧ ∀ c ∈ after.head?, isTagChar c = false

variable {kind : Conversion} {found : String}

theorem HoldsOverride.of_suffix {text : List Char} (h : HoldsOverride cs kind found)
    (hsuffix : cs <:+ text) : HoldsOverride text kind found := by
  obtain ⟨before, raw, after, rfl, hraw, hafter⟩ := h
  obtain ⟨front, rfl⟩ := hsuffix
  exact ⟨front ++ before, raw, after, by simp, hraw, hafter⟩

theorem tag_of_readTail (h : (readTail value cs).1 = some (.value kind found)) :
    found = String.ofList value ∧
      ∃ after, cs = kind.tag.toList ++ after ∧ ∀ c ∈ after.head?, isTagChar c = false := by
  unfold readTail at h
  dsimp only at h
  split at h
  · cases hkind : tagKind? (cs.takeWhile isTagChar) with
    | none => simp [hkind] at h
    | some given =>
      obtain ⟨rfl, rfl⟩ : given = kind ∧ String.ofList value = found := by simpa [hkind] using h
      refine ⟨rfl, cs.dropWhile isTagChar, ?_, ?_⟩
      · rw [← eq_tag_of_tagKind? hkind, List.takeWhile_append_dropWhile]
      · intro c hc
        have hnot := List.head?_dropWhile_not isTagChar cs
        rw [Option.mem_def.1 hc] at hnot
        simpa using hnot
  · split at h
    · split at h <;> simp at h
    · simp at h

theorem readWord_ne_value (opensText : Bool) (cs : List Char) :
    (readWord opensText cs).1 ≠ some (.value kind found) := by
  unfold readWord
  dsimp only
  split
  · split <;> simp
  · simp

theorem holdsOverride_of_readItem {opensText : Bool} {c : Char}
    (h : (readItem opensText c cs).1 = some (.value kind found)) :
    HoldsOverride (c :: cs) kind found := by
  unfold readItem at h
  split at h
  · cases h
  split at h
  · rename_i hquote
    cases hread : readLiteral cs with
    | none => simp [hread] at h
    | some literal =>
      obtain ⟨payload, rest⟩ := literal
      simp only [hread] at h
      obtain ⟨rfl, after, rfl, hafter⟩ := tag_of_readTail h
      obtain ⟨raw, rfl, hraw⟩ := readLiteral_eq_some_iff.1 hread
      exact ⟨[], raw, after, by simp [hquote], by simpa using hraw, hafter⟩
  · exact absurd h (readWord_ne_value opensText (c :: cs))

/-- What comes before a piece has no effect on where its literal stands. -/
theorem holdsOverride_of_readItems {opensText : Bool}
    (h : .value kind found ∈ readItems opensText cs) : HoldsOverride cs kind found := by
  fun_induction readItems opensText cs with
  | case1 => cases h
  | case2 opensText c cs read ih =>
    rcases List.mem_append.1 h with hitem | hmore
    · exact holdsOverride_of_readItem (Option.mem_toList.1 hitem)
    · exact (ih hmore).of_suffix ((readItem_suffix opensText c cs).trans (List.suffix_cons c cs))

theorem mem_of_value?_ofItems {items : List OverrideItem}
    (h : (Overrides.ofItems items).value? kind = some found) : .value kind found ∈ items := by
  rw [value?_ofItems] at h
  obtain ⟨item, hitem, hvalue⟩ := List.exists_of_findSome?_eq_some h
  cases item with
  | problem => cases hvalue
  | value given held =>
    obtain ⟨rfl, rfl⟩ : kind = given ∧ held = found := by
      simpa [OverrideItem.valueFor?] using hvalue
    exact hitem

/-- A value stands in the text, the first part of the text that gives one decides, and without quotes
there is none. -/
theorem ofText_sound (text : String) (kind : Conversion) :
    (∀ value, (Overrides.ofText text).value? kind = some value →
      HoldsOverride text.toList kind value) ∧
    (∀ front back value, readItems true text.toList = front ++ back →
      (Overrides.ofItems front).value? kind = some value →
      (Overrides.ofText text).value? kind = some value) ∧
    ('"' ∉ text.toList → (Overrides.ofText text).value? kind = none) := by
  have hholds (value : String) (h : (Overrides.ofText text).value? kind = some value) :
      HoldsOverride text.toList kind value := holdsOverride_of_readItems (mem_of_value?_ofItems h)
  refine ⟨hholds, fun front back value hitems hfront => ?_, fun hquote => ?_⟩
  · rw [value?_ofItems] at hfront
    rw [Overrides.ofText, value?_ofItems, hitems, List.findSome?_append, hfront, Option.some_or]
  · cases hvalue : (Overrides.ofText text).value? kind with
    | none => rfl
    | some value =>
      obtain ⟨before, raw, after, htext, -⟩ := hholds value hvalue
      exact absurd (by simp [htext]) hquote

/-- A text with a loose tag, a literal without a tag, an override and a literal that is not closed. -/
def strayText : String :=
  "it's 'x's \"a\" \"b\\\"c\"s \"d"

theorem ofText_sound_strayText :
    (Overrides.ofText strayText).value? .string = some "b\"c" ∧
      HoldsOverride strayText.toList .string "b\"c" ∧
      (Overrides.ofText strayText).value? .json = none ∧
      (Overrides.ofText "it's 'x's").value? .string = none := by
  -- The value is there before the last literal is read.
  have hvalue : (Overrides.ofText strayText).value? .string = some "b\"c" :=
    (ofText_sound strayText .string).2.1 ((readItems true strayText.toList).take 2)
      ((readItems true strayText.toList).drop 2) _ (List.take_append_drop ..).symm (by decide +kernel)
  exact ⟨hvalue, (ofText_sound strayText .string).1 _ hvalue, by decide +kernel,
    (ofText_sound "it's 'x's" .string).2.2 (by decide)⟩

end EnumConverter.Annotation
