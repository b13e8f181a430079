import EnumConverter.Proofs.Build.Earlier
import EnumConverter.Proofs.Printing.Note
import Mathlib.Data.List.Chain
import Mathlib.Data.List.TakeWhile

namespace EnumConverter.Annotation

open Printing Text

/-- A word of free text. -/
structure FreeWord where
  text : String
  ne_empty : text ≠ ""
  plain : ∀ c ∈ text.toList, isBlank c = false ∧ c ≠ '"' ∧ c ≠ '\''

/-- An item of a text with overrides. -/
inductive TextItem where
  | override (kind : Conversion) (payload : String)
  /-- A literal without a tag. -/
  | literal (payload : String)
  | free (word : FreeWord)

/-- A payload between quotes. -/
def quoted (payload : String) : List Char :=
  '"' :: (payload.toList.flatMap escape ++ ['"'])

namespace TextItem

/-- An item as it is written. -/
def spelling : TextItem → List Char
  | .override kind payload => quoted payload ++ kind.tag.toList
  | .literal payload => quoted payload
  | .free word => word.text.toList

/-- The conversion and the value of an override. -/
def override? : TextItem → Option (Conversion × String)
  | .override kind payload => some (kind, payload)
  | _ => none

/-- Whether an item is a literal without a tag. -/
def isLiteral : TextItem → Bool
  | .literal _ => true
  | _ => false

/-- Whether an item is a word that looks like a tag. -/
def isBareTag : TextItem → Bool
  | .free word => word.text = "s" || word.text = "json"
  | _ => false

end TextItem

/-- The overrides among some items. -/
def overridesOf (items : List TextItem) : List (Conversion × String) :=
  items.filterMap TextItem.override?

/-- A text is made of the given items, with blanks between them and perhaps around them. -/
inductive Spells : List TextItem → List Char → Prop
  | blank {gap : List Char} (hgap : isBlankText gap = true) : Spells [] gap
  | item {item : TextItem} {items : List TextItem} {gap rest : List Char}
      (hgap : isBlankText gap = true) (hend : rest.head?.all isBlank = true)
      (hrest : Spells items rest) : Spells (item :: items) (gap ++ (item.spelling ++ rest))

/-- No word that looks like a tag comes first or right behind a literal without a tag. -/
structure Unambiguous (items : List TextItem) : Prop where
  first : ∀ item ∈ items.head?, item.isBareTag = false
  next : items.IsChain fun item next => item.isLiteral = true → next.isBareTag = false

/-- The given comments are made of the given items. No item is cut by the end of a comment, and a
comment may also be blank. -/
structure Written (items : List TextItem) (fragments : List String) : Prop where
  cut : ∃ groups : List (List TextItem), groups.flatten = items ∧
    List.Forall₂ (fun group fragment => Spells group fragment.toList) groups fragments
  unambiguous : Unambiguous items

variable {items : List TextItem} {text : List Char}

/-- All lists of items can be written. -/
theorem spells_spaced (items : List TextItem) :
    Spells items (items.flatMap fun item => ' ' :: item.spelling) := by
  induction items with
  | nil => exact .blank rfl
  | cons item items ih =>
    refine .item (show isBlankText [' '] = true by decide) ?_ ih
    cases items with
    | nil => rfl
    | cons => exact show isBlank ' ' = true by decide

theorem spells_append_blank {gap : List Char} (hgap : isBlankText gap = true)
    (h : Spells items text) : Spells items (gap ++ text) := by
  have hblank {more : List Char} (hmore : isBlankText more = true) :
      isBlankText (gap ++ more) = true := by
    simp_all [isBlankText]
  cases h with
  | blank hmore => exact .blank (hblank hmore)
  | item hmore hend hrest =>
    rw [← List.append_assoc]
    exact .item (hblank hmore) hend hrest

/-- Two texts with a blank between them. -/
theorem Spells.append {others : List TextItem} {second : List Char} (h : Spells items text)
    (hsecond : Spells others second) : Spells (items ++ others) (text ++ ' ' :: second) := by
  have hspace : Spells others (' ' :: second) := spells_append_blank
    (show isBlankText [' '] = true by decide) hsecond
  induction h with
  | blank hgap => exact spells_append_blank hgap hspace
  | @item item items gap rest hgap hend _ ih =>
    rw [List.append_assoc, List.append_assoc]
    refine .item hgap ?_ ih
    cases rest with
    | nil => rfl
    | cons c rest => simpa using hend

theorem TextItem.spelling_head (item : TextItem) :
    ∃ c rest, item.spelling = c :: rest ∧ isBlank c = false := by
  cases item with
  | override kind payload => exact ⟨'"', _, rfl, by decide⟩
  | literal payload => exact ⟨'"', _, rfl, by decide⟩
  | free word =>
    obtain ⟨c, rest, htext⟩ :=
      List.exists_cons_of_ne_nil (mt String.toList_eq_nil_iff.1 word.ne_empty)
    exact ⟨c, rest, htext, (word.plain c (by simp [htext])).1⟩

/-- A blank text has no items. -/
theorem Spells.eq_nil (h : Spells items text) (hblank : isBlankText text = true) : items = [] := by
  cases h with
  | blank => rfl
  | @item item items gap rest hgap hend hrest =>
    obtain ⟨c, more, hspelling, hc⟩ := item.spelling_head
    simp [isBlankText, hspelling, hc] at hblank

theorem spells_join {groups : List (List TextItem)} {fragments : List String}
    (h : List.Forall₂ (fun group fragment => Spells group fragment.toList) groups fragments) :
    Spells groups.flatten (join [' '] ((fragments.map String.toList).filter (!isBlankText ·))) := by
  induction h with
  | nil => exact .blank rfl
  | @cons group fragment groups fragments hgroup _ ih =>
    rw [List.flatten_cons, List.map_cons]
    by_cases hblank : isBlankText fragment.toList = true
    · rw [List.filter_cons_of_neg (by simpa using hblank), hgroup.eq_nil hblank, List.nil_append]
      exact ih
    · rw [List.filter_cons_of_pos (by simpa using hblank)]
      cases hothers : (fragments.map String.toList).filter (!isBlankText ·) with
      | nil =>
        rw [hothers] at ih
        rw [ih.eq_nil rfl, List.append_nil]
        exact hgroup
      | cons next others =>
        rw [hothers] at ih
        rw [join, List.append_assoc]
        exact hgroup.append ih

theorem isTagChar_of_isBlank {c : Char} (h : isBlank c = true) : isTagChar c = false := by
  by_contra htag
  rw [Bool.not_eq_false] at htag
  have hblank := Source.isBlank_of_isIdentRest (c := c) htag
  rw [h] at hblank
  cases hblank

theorem isTagChar_of_head {rest : List Char} (h : rest.head?.all isBlank = true) :
    ∀ c ∈ rest.head?, isTagChar c = false := by
  intro c hc
  rw [Option.mem_def.1 hc] at h
  exact isTagChar_of_isBlank h

theorem eq_tag_of_tagKind? {cs : List Char} {kind : Conversion} (h : tagKind? cs = some kind) :
    cs = kind.tag.toList := by
  rw [Conversion.tag_of_ofTag? h, String.toList_ofList]

theorem tagKind?_of_isBareTag {word : FreeWord} (h : (TextItem.free word).isBareTag = false) :
    tagKind? word.text.toList = none := by
  cases hkind : tagKind? word.text.toList with
  | none => rfl
  | some kind =>
    have htext : word.text = kind.tag := String.toList_inj.1 (eq_tag_of_tagKind? hkind)
    cases kind <;> simp [TextItem.isBareTag, htext, Conversion.tag] at h

theorem readItems_blanks (opensText : Bool) {gap : List Char} (hgap : isBlankText gap = true)
    (text : List Char) : readItems opensText (gap ++ text) = readItems opensText text := by
  induction gap with
  | nil => rfl
  | cons c gap ih =>
    obtain ⟨hc, hgap⟩ : isBlank c = true ∧ isBlankText gap = true := by
      simpa [isBlankText] using hgap
    have hitem : readItem opensText c (gap ++ text) = (none, gap ++ text) := by
      rw [readItem, if_pos hc]
    rw [List.cons_append, readItems, hitem, hc, Bool.and_true]
    exact ih hgap

/-- A free word in front of blanks does not end behind a tag at its start. -/
theorem not_detached_free {word : FreeWord} (hword : (TextItem.free word).isBareTag = false)
    {rest : List Char} (hend : rest.head?.all isBlank = true) {kind : Conversion}
    (hkind : tagKind? ((word.text.toList ++ rest).takeWhile isTagChar) = some kind) :
    ((word.text.toList ++ rest).dropWhile isTagChar).head?.all isBlank = false := by
  by_cases hall : ∀ c ∈ word.text.toList, isTagChar c = true
  · rw [takeWhile_append_of_head hall (isTagChar_of_head hend), tagKind?_of_isBareTag hword] at hkind
    cases hkind
  · obtain ⟨c, more, hdrop⟩ : ∃ c more, word.text.toList.dropWhile isTagChar = c :: more :=
      List.exists_cons_of_ne_nil (mt List.dropWhile_eq_nil_iff.1 hall)
    have hmem : c ∈ word.text.toList := (List.dropWhile_suffix isTagChar).subset (by simp [hdrop])
    rw [List.dropWhile_append, hdrop]
    simpa using (word.plain c hmem).1

/-- What follows a literal is no tag that blanks detach from it. -/
theorem Spells.not_detached {rest : List Char} (h : Spells items rest)
    (hnext : ∀ item ∈ items.head?, item.isBareTag = false) {kind : Conversion}
    (hkind : tagKind? ((trimStart rest).takeWhile isTagChar) = some kind) :
    ((trimStart rest).dropWhile isTagChar).head?.all isBlank = false := by
  have hempty : tagKind? [] = none := by decide
  cases h with
  | blank hgap =>
    have htrim : trimStart rest = [] := List.dropWhile_eq_nil_iff.2 (List.all_eq_true.1 hgap)
    rw [htrim, List.takeWhile_nil, hempty] at hkind
    cases hkind
  | @item item items gap rest hgap hend hrest =>
    obtain ⟨c, more, hspelling, hc⟩ := item.spelling_head
    have htrim : trimStart (gap ++ (item.spelling ++ rest)) = item.spelling ++ rest :=
      dropWhile_append_of_head (List.all_eq_true.1 hgap) (by simpa [hspelling] using hc)
    rw [htrim] at hkind ⊢
    cases item with
    | free word => exact not_detached_free (hnext _ rfl) hend hkind
    | override | literal =>
      have hquote : isTagChar '"' = false := by decide
      simp [TextItem.spelling, quoted, hquote, hempty] at hkind

theorem readItems_literal (opensText : Bool) (payload : String) {rest : List Char}
    (hend : rest.head?.all isBlank = true)
    (hdetached : ∀ kind, tagKind? ((trimStart rest).takeWhile isTagChar) = some kind →
      ((trimStart rest).dropWhile isTagChar).head?.all isBlank = false) :
    readItems opensText (quoted payload ++ rest) = readItems false rest := by
  have htag : rest.takeWhile isTagChar = [] := takeWhile_of_head (isTagChar_of_head hend)
  have htail : readTail payload.toList rest = (none, rest) := by
    unfold readTail
    dsimp only
    rw [htag, if_neg (by simp)]
    split
    · rename_i kind hkind
      rw [hdetached kind hkind, Bool.and_false]
      rfl
    · rfl
  have hitem : readItem opensText '"' (payload.toList.flatMap escape ++ '"' :: rest) =
      (none, rest) := by
    unfold readItem
    rw [if_neg (by decide), if_pos rfl, readLiteral_escape]
    exact htail
  have htext : quoted payload ++ rest = '"' :: (payload.toList.flatMap escape ++ '"' :: rest) := by
    simp [quoted]
  rw [htext, readItems, hitem, show isBlank '"' = false by decide, Bool.and_false]
  rfl

/-- A free word that opens no tag is passed over. -/
theorem readWord_free (opensText : Bool) {word : FreeWord} {rest : List Char}
    (hend : rest.head?.all isBlank = true)
    (hopens : opensText = true → (TextItem.free word).isBareTag = false) :
    readWord opensText (word.text.toList ++ rest) = (none, rest) := by
  have hinside : ∀ c ∈ word.text.toList, (!endsFreeWord c) = true := by
    intro c hc
    obtain ⟨hblank, hquote, -⟩ := word.plain c hc
    simp [endsFreeWord, hblank, hquote]
  have hstop : ∀ c ∈ rest.head?, (!endsFreeWord c) = false := by
    intro c hc
    rw [Option.mem_def.1 hc] at hend
    simp [endsFreeWord, show isBlank c = true from hend]
  have hloose : looseTag? word.text.toList opensText = none := by
    have hsingle : '\'' ∉ word.text.toList := fun hmem => (word.plain _ hmem).2.2 rfl
    rw [looseTag?, if_neg hsingle]
    cases opensText with
    | false => rfl
    | true => rw [if_pos rfl, tagKind?_of_isBareTag (hopens rfl)]; rfl
  unfold readWord
  dsimp only
  rw [takeWhile_append_of_head hinside hstop, dropWhile_append_of_head hinside hstop, hloose]
  split
  · cases hend
  · rfl

theorem readItems_free (opensText : Bool) {word : FreeWord} {rest : List Char}
    (hend : rest.head?.all isBlank = true)
    (hopens : opensText = true → (TextItem.free word).isBareTag = false) :
    readItems opensText (word.text.toList ++ rest) = readItems false rest := by
  have hread := readWord_free opensText hend hopens
  obtain ⟨c, more, htext⟩ :=
    List.exists_cons_of_ne_nil (mt String.toList_eq_nil_iff.1 word.ne_empty)
  obtain ⟨hblank, hquote, -⟩ := word.plain c (by simp [htext])
  rw [htext, List.cons_append] at hread ⊢
  have hitem : readItem opensText c (more ++ rest) = (none, rest) := by
    rw [readItem, if_neg (by simp [hblank]), if_neg hquote, hread]
  rw [readItems, hitem, hblank, Bool.and_false]
  rfl

/-- Reading finds the overrides and nothing else. -/
theorem Spells.readItems_eq (h : Spells items text) (opensText : Bool)
    (hfirst : opensText = true → ∀ item ∈ items.head?, item.isBareTag = false)
    (hnext : items.IsChain fun item next => item.isLiteral = true → next.isBareTag = false) :
    readItems opensText text = (overridesOf items).map fun (kind, value) => .value kind value := by
  induction h generalizing opensText with
  | @blank gap hgap =>
    rw [← List.append_nil gap, readItems_blanks opensText hgap, readItems]
    rfl
  | @item item items gap rest hgap hend hrest ih =>
    have hmore : readItems false rest = (overridesOf items).map fun (kind, value) => .value kind value :=
      ih false (by simp) hnext.tail
    rw [readItems_blanks opensText hgap]
    cases item with
    | override kind payload =>
      have htext : (TextItem.override kind payload).spelling ++ rest =
          '"' :: (payload.toList.flatMap escape ++ '"' :: (kind.tag.toList ++ rest)) := by
        simp [TextItem.spelling, quoted]
      rw [htext, readItems_tagged opensText kind _ (isTagChar_of_head hend), hmore,
        String.ofList_toList]
      rfl
    | literal payload =>
      have hfollowing : ∀ next ∈ items.head?, next.isBareTag = false := by
        intro next hmem
        obtain ⟨others, rfl⟩ := List.head?_eq_some_iff.1 hmem
        exact (List.isChain_cons_cons.1 hnext).1 rfl
      exact (readItems_literal opensText payload hend fun kind => hrest.not_detached hfollowing).trans
        hmore
    | free word =>
      exact (readItems_free opensText hend fun hopens => hfirst hopens _ rfl).trans hmore

/-- The first override for each conversion gives its value. Every further one is reported, in order. -/
structure Decoded (found : List (Conversion × String)) (set : Overrides) : Prop where
  value? : ∀ kind, set.value? kind = found.lookup kind
  problems : List.Forall₂ (fun further problem => ∃ kept, found.lookup further.1 = some kept ∧
    problem = .repeated further.1 further.2 kept) (laterOccurrences Prod.fst found) set.problems

variable {found : List (Conversion × String)} {set : Overrides}

/-- The value that an item holds for a conversion. -/
def OverrideItem.valueFor? (kind : Conversion) : OverrideItem → Option String
  | .value given held => if kind = given then some held else none
  | .problem _ => none

theorem value?_addProblem (set : Overrides) (problem : OverrideProblem) (kind : Conversion) :
    (set.addProblem problem).value? kind = set.value? kind := by
  cases kind <;> rfl

theorem value?_setValue (set : Overrides) (value : String) (given kind : Conversion) :
    (set.setValue value given).value? kind = if kind = given then some value else set.value? kind := by
  cases given <;> cases kind <;> rfl

/-- A value that is there stays. -/
theorem value?_add (set : Overrides) (item : OverrideItem) (kind : Conversion) :
    (set.add item).value? kind = (set.value? kind).or (item.valueFor? kind) := by
  cases item with
  | problem problem =>
    rw [Overrides.add, value?_addProblem, OverrideItem.valueFor?, Option.or_none]
  | value given value =>
    rw [OverrideItem.valueFor?]
    cases hkept : set.value? given with
    | none =>
      have hadd : set.add (.value given value) = set.setValue value given := by
        simp [Overrides.add, hkept]
      rw [hadd, value?_setValue]
      by_cases hkind : kind = given
      · simp [hkind, hkept]
      · simp [hkind]
    | some kept =>
      have hadd : set.add (.value given value) = set.addProblem (.repeated given value kept) := by
        simp [Overrides.add, hkept]
      rw [hadd, value?_addProblem]
      by_cases hkind : kind = given
      · simp [hkind, hkept]
      · simp [hkind]

theorem problems_add_value (set : Overrides) (kind : Conversion) (value : String) :
    (set.add (.value kind value)).problems =
      set.problems ++ ((set.value? kind).map (.repeated kind value)).toList := by
  cases hkept : set.value? kind <;> cases kind <;>
    simp [Overrides.add, hkept, Overrides.addProblem, Overrides.setValue]

theorem ofItems_concat (items : List OverrideItem) (item : OverrideItem) :
    Overrides.ofItems (items ++ [item]) = (Overrides.ofItems items).add item :=
  List.foldl_concat ..

/-- The first value for a conversion is its value. -/
theorem value?_ofItems (items : List OverrideItem) (kind : Conversion) :
    (Overrides.ofItems items).value? kind = items.findSome? (·.valueFor? kind) := by
  induction items using List.reverseRecOn with
  | nil => cases kind <;> rfl
  | append_singleton items item ih =>
    rw [ofItems_concat, value?_add, ih, List.findSome?_append, List.findSome?_singleton]

theorem value?_ofItems_values (found : List (Conversion × String)) (kind : Conversion) :
    (Overrides.ofItems (found.map fun (given, value) => .value given value)).value? kind =
      found.lookup kind := by
  rw [value?_ofItems, List.findSome?_map, List.lookup_eq_findSome?]
  congr
  funext given
  simp [OverrideItem.valueFor?]

theorem decoded_ofItems (found : List (Conversion × String)) :
    Decoded found (Overrides.ofItems (found.map fun (kind, value) => .value kind value)) := by
  refine ⟨value?_ofItems_values found, ?_⟩
  induction found using List.reverseRecOn with
  | nil => exact .nil
  | append_singleton found last ih =>
    obtain ⟨kind, value⟩ := last
    rw [List.map_append, List.map_singleton, ofItems_concat, problems_add_value,
      value?_ofItems_values, laterOccurrences_concat]
    refine List.rel_append (ih.imp ?_) ?_
    · rintro further problem ⟨kept, hkept, hproblem⟩
      exact ⟨kept, by rw [List.lookup_append, hkept, Option.some_or], hproblem⟩
    cases hkept : found.lookup kind with
    | none =>
      have hkey : kind ∉ found.map Prod.fst := by
        intro hmem
        obtain ⟨given, hgiven, rfl⟩ := List.mem_map.1 hmem
        simpa using List.lookup_eq_none_iff.1 hkept given hgiven
      rw [if_neg hkey]
      exact .nil
    | some kept =>
      have hkey : kind ∈ found.map Prod.fst := by
        simpa [List.lookup_isSome_iff] using Option.isSome_of_eq_some hkept
      rw [if_pos hkey]
      exact .cons ⟨kept, by rw [List.lookup_append, hkept, Option.some_or], rfl⟩ .nil

theorem lookup_eq_some_iff_mem (hnodup : (found.map Prod.fst).Nodup) {kind : Conversion}
    {value : String} : found.lookup kind = some value ↔ (kind, value) ∈ found := by
  induction found with
  | nil => simp
  | cons head found ih =>
    obtain ⟨hhead, hnodup⟩ := List.nodup_cons.1 hnodup
    rw [List.lookup_cons, List.mem_cons]
    by_cases hkind : kind = head.1
    · have hrest : (kind, value) ∉ found := fun hmem =>
        hhead (hkind ▸ List.mem_map_of_mem (f := Prod.fst) hmem)
      subst hkind
      simp [hrest, Prod.ext_iff, eq_comm]
    · have hother : (kind == head.1) = false := by simpa using hkind
      simp [hother, ih hnodup, Prod.ext_iff, hkind]

/-- With one override for each conversion at most, their order has no effect. -/
theorem lookup_perm {others : List (Conversion × String)} (hperm : others.Perm found)
    (hnodup : (found.map Prod.fst).Nodup) (kind : Conversion) :
    others.lookup kind = found.lookup kind := by
  have hnodup' : (others.map Prod.fst).Nodup := (hperm.map Prod.fst).nodup_iff.2 hnodup
  ext value
  rw [lookup_eq_some_iff_mem hnodup, lookup_eq_some_iff_mem hnodup', hperm.mem_iff]

theorem laterOccurrences_eq_nil (hnodup : (found.map Prod.fst).Nodup) :
    laterOccurrences Prod.fst found = [] := by
  induction found using List.reverseRecOn with
  | nil => rfl
  | append_singleton found last ih =>
    rw [List.map_append, List.nodup_append] at hnodup
    have hlast : last.1 ∉ found.map Prod.fst := fun hmem =>
      hnodup.2.2 _ hmem _ (by simp) rfl
    rw [laterOccurrences_concat, ih hnodup.1, if_neg hlast, List.append_nil]

theorem Decoded.eq_of_perm {others : List (Conversion × String)} {otherSet : Overrides}
    (h : Decoded found set) (hothers : Decoded others otherSet)
    (hnodup : (found.map Prod.fst).Nodup) (hperm : others.Perm found) : otherSet = set := by
  have hvalue (kind : Conversion) : otherSet.value? kind = set.value? kind := by
    rw [hothers.value?, h.value?, lookup_perm hperm hnodup]
  have hnone {list : List (Conversion × String)} {given : Overrides} (hlist : Decoded list given)
      (hkeys : (list.map Prod.fst).Nodup) : given.problems = [] := by
    have hproblems := hlist.problems
    rw [laterOccurrences_eq_nil hkeys] at hproblems
    exact List.forall₂_nil_left_iff.1 hproblems
  have hstring : otherSet.string = set.string := hvalue .string
  have hjson : otherSet.json = set.json := hvalue .json
  have hproblems : otherSet.problems = set.problems := by
    rw [hnone h hnodup, hnone hothers ((hperm.map Prod.fst).nodup_iff.2 hnodup)]
  cases set
  cases otherSet
  simp_all

/-- Overrides are decoded completely, whatever their payloads are and however the text is cut into
comments. Overrides for different conversions may come in either order. -/
theorem ofFragments_written {fragments : List String} (h : Written items fragments) :
    Decoded (overridesOf items) (Overrides.ofFragments fragments) ∧
      ∀ {others : List TextItem} {otherFragments : List String}, Written others otherFragments →
        ((overridesOf items).map Prod.fst).Nodup → (overridesOf others).Perm (overridesOf items) →
          Overrides.ofFragments otherFragments = Overrides.ofFragments fragments := by
  have hdecoded {items : List TextItem} {fragments : List String} (h : Written items fragments) :
      Decoded (overridesOf items) (Overrides.ofFragments fragments) := by
    obtain ⟨⟨groups, rfl, hgroups⟩, hunambiguous⟩ := h
    have hread := (spells_join hgroups).readItems_eq true (fun _ => hunambiguous.first)
      hunambiguous.next
    unfold Overrides.ofFragments Overrides.ofText
    dsimp only
    rw [String.toList_ofList, hread]
    exact decoded_ofItems _
  exact ⟨hdecoded h, fun hothers hnodup hperm =>
    (hdecoded h).eq_of_perm (hdecoded hothers) hnodup hperm⟩

/-- Three comments with a quote in a payload, a literal without a tag and an override too many. -/
def noisyItems : List TextItem :=
  [.free ⟨"see", by decide, by simp; decide⟩, .override .string "x\"y", .literal "z",
    .override .json "v", .override .string "w"]

def noisyFragments : List String :=
  [" see \"x\\\"y\"s", "  ", " \"z\" \"v\"json \"w\"s"]

theorem ofFragments_written_noisyFragments :
    Written noisyItems noisyFragments ∧
      Decoded [(.string, "x\"y"), (.json, "v"), (.string, "w")] (Overrides.ofFragments noisyFragments) ∧
      Overrides.ofFragments [" \"v\"json \"u\"s"] = Overrides.ofFragments [" \"u\"s \"v\"json"] := by
  have hnoisy : Written noisyItems noisyFragments := by
    refine ⟨⟨[noisyItems.take 2, [], noisyItems.drop 2], rfl, ?_⟩, ?_, ?_⟩
    · exact .cons (spells_spaced (noisyItems.take 2)) (.cons (.blank (by decide))
        (.cons (spells_spaced (noisyItems.drop 2)) .nil))
    · simp [noisyItems, TextItem.isBareTag]
    · simp [noisyItems, TextItem.isBareTag]
  have hpair (kind other : Conversion) (first second : String) {text : String}
      (htext : text.toList = [TextItem.override kind first, .override other second].flatMap
        fun item => ' ' :: item.spelling) :
      Written [.override kind first, .override other second] [text] :=
    ⟨⟨[[.override kind first, .override other second]], rfl,
      .cons (htext ▸ spells_spaced _) .nil⟩, by simp [TextItem.isBareTag], by simp [TextItem.isBareTag]⟩
  exact ⟨hnoisy, (ofFragments_written hnoisy).1,
    (ofFragments_written (hpair .string .json "u" "v" (by decide))).2
      (hpair .json .string "v" "u" (by decide)) (by decide) (List.Perm.swap ..)⟩

end EnumConverter.Annotation
