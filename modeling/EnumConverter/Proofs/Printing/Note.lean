import EnumConverter.Proofs.Printing.Tree
import EnumConverter.Proofs.Text.Line

namespace EnumConverter.Printing

open Source Scan Annotation Text

theorem readLiteral_escape (payload rest : List Char) :
    readLiteral (payload.flatMap escape ++ '"' :: rest) = some (payload, rest) := by
  induction payload with
  | nil => rfl
  | cons c payload ih =>
    rw [List.flatMap_cons, List.append_assoc]
    by_cases hbackslash : c = '\\'
    · subst hbackslash
      simp [escape, readLiteral, ih]
    by_cases hquote : c = '"'
    · subst hquote
      simp [escape, readLiteral, ih]
    · simp [escape, hbackslash, hquote, readLiteral, ih]

theorem readTail_tag (value : List Char) (kind : Conversion) {rest : List Char}
    (hrest : ∀ c ∈ rest.head?, isTagChar c = false) :
    readTail value (kind.tag.toList ++ rest) =
      (some (.value kind (String.ofList value)), rest) := by
  have htag : ∀ c ∈ kind.tag.toList, isTagChar c = true :=
    List.all_eq_true.1 (by cases kind <;> decide)
  have hne : kind.tag.toList ≠ [] := by cases kind <;> decide
  unfold readTail
  rw [takeWhile_append_of_head htag hrest, dropWhile_append_of_head htag hrest, if_pos hne]
  simp [tagKind?]

theorem toList_override (kind : Conversion) (payload : Payload) :
    (override kind payload).toList =
      '"' :: (payload.text.toList.flatMap escape ++ '"' :: kind.tag.toList) := by
  simp [override]

/-- A tagged literal is read back, and reading goes on behind it. -/
theorem readItems_tagged (opensText : Bool) (kind : Conversion) (payload : List Char)
    {rest : List Char} (hrest : ∀ c ∈ rest.head?, isTagChar c = false) :
    readItems opensText ('"' :: (payload.flatMap escape ++ '"' :: (kind.tag.toList ++ rest))) =
      .value kind (String.ofList payload) :: readItems false rest := by
  have hitem : readItem opensText '"' (payload.flatMap escape ++ '"' :: (kind.tag.toList ++ rest)) =
      (some (.value kind (String.ofList payload)), rest) := by
    unfold readItem
    rw [if_neg (by decide), if_pos rfl, readLiteral_escape]
    dsimp only
    rw [readTail_tag _ kind hrest]
  rw [readItems, hitem, show isBlank '"' = false by decide, Bool.and_false]
  rfl

/-- An override is read back, and reading goes on behind it. -/
theorem readItems_override (opensText : Bool) (kind : Conversion) (payload : Payload)
    {rest : List Char} (hrest : ∀ c ∈ rest.head?, isTagChar c = false) :
    readItems opensText ((override kind payload).toList ++ rest) =
      .value kind payload.text :: readItems false rest := by
  rw [toList_override, List.cons_append, List.append_assoc, List.cons_append,
    readItems_tagged opensText kind _ hrest, String.ofList_toList]

theorem readItems_end (opensText : Bool) (kind : Conversion) (payload : Payload) :
    readItems opensText (override kind payload).toList = [.value kind payload.text] := by
  rw [← List.append_nil (override kind payload).toList, readItems_override opensText kind payload
    (by simp), readItems]

theorem override_trimmed (kind : Conversion) (payload : Payload) :
    Trimmed (override kind payload).toList := by
  rw [toList_override]
  refine .cons (by decide) (by simp) ?_
  cases kind <;> simp [Conversion.tag] <;> decide

theorem lineFeed_notMem_override (kind : Conversion) (payload : Payload) :
    '\n' ∉ (override kind payload).toList := by
  have hescape : '\n' ∉ payload.text.toList.flatMap escape := by
    intro hmem
    obtain ⟨c, hc, hfeed⟩ := List.mem_flatMap.1 hmem
    have hsame : '\n' = c := by
      unfold escape at hfeed
      split at hfeed <;> simpa using hfeed
    exact payload.oneLine (hsame ▸ hc)
  rw [toList_override]
  cases kind <;> simp [hescape, Conversion.tag]

/-- Overrides for both conversions, with a blank between them. -/
def bothOverrides (kind : Conversion) (first second : Payload) : String :=
  override kind first ++ " " ++ override (otherKind kind) second

theorem bothOverrides_trimmed (kind : Conversion) (first second : Payload) :
    Trimmed (bothOverrides kind first second).toList := by
  have hboth := (override_trimmed kind first).append (override_trimmed (otherKind kind) second) [' ']
  simpa [bothOverrides] using hboth

theorem lineFeed_notMem_bothOverrides (kind : Conversion) (first second : Payload) :
    '\n' ∉ (bothOverrides kind first second).toList := by
  simp [bothOverrides, lineFeed_notMem_override]

/-- The text in which overrides are looked for is what stands behind the mark. -/
theorem overrideText_mark {text : String} (htrimmed : Trimmed text.toList)
    (hfeed : '\n' ∉ text.toList) :
    overrideText ("//< " ++ text) .line = text := by
  have hbody : commentBody ("//< " ++ text).toList = '<' :: ' ' :: text.toList := by
    simp [commentBody, dropFlavour]
  have hmarked : Trimmed ('<' :: ' ' :: text.toList) := by
    refine .cons (by decide) (by simp) ?_
    rw [List.getLast?_cons_of_ne_nil htrimmed.ne_nil]
    exact htrimmed.last
  have hcontent : contentOfLine .line ('<' :: ' ' :: text.toList) = '<' :: ' ' :: text.toList :=
    hmarked.trim_eq
  have hspace : trim (' ' :: text.toList) = text.toList := htrimmed.trim_eq
  unfold overrideText
  rw [hbody, lines_of_notMem (by simpa using hfeed) (by simp)]
  simp [hcontent, join, dropFlavour, continuationMark, hspace]

/-- Overrides are looked for in all comments at once. -/
theorem ofFragments_of_trimmed {texts : List String}
    (h : ∀ text ∈ texts, Trimmed text.toList) :
    Overrides.ofFragments texts =
      Overrides.ofItems (readItems true (join [' '] (texts.map String.toList))) := by
  have hfilter : (texts.map String.toList).filter (!isBlankText ·) = texts.map String.toList := by
    rw [List.filter_eq_self]
    intro cs hcs
    obtain ⟨text, htext, rfl⟩ := List.mem_map.1 hcs
    rw [(h text htext).isBlankText_eq]
    rfl
  unfold Overrides.ofFragments
  rw [hfilter, Overrides.ofText, String.toList_ofList]

namespace Note

/-- The comments of a note, as they are attached to its enumerator. -/
def comments (note : Note) : List TrailingComment :=
  (note.beside.toList ++ note.below.toList).map (⟨·, .line⟩)

/-- What the comments of a note say. -/
def items : Note → List OverrideItem
  | .absent | .empty => []
  | .single kind payload => [.value kind payload.text]
  | .double kind first second _ => [.value kind first.text, .value (otherKind kind) second.text]

theorem ofItems_items (note : Note) :
    Overrides.ofItems note.items = ⟨note.value? .string, note.value? .json, []⟩ := by
  cases note with
  | absent | empty => rfl
  | single kind payload => cases kind <;> rfl
  | double kind first second below => cases kind <;> rfl

theorem readItems_double (kind : Conversion) (first second : Payload) :
    readItems true ((override kind first).toList ++ ' ' :: (override (otherKind kind) second).toList)
      = [.value kind first.text, .value (otherKind kind) second.text] := by
  have hblank : readItems false (' ' :: (override (otherKind kind) second).toList) =
      readItems false (override (otherKind kind) second).toList := by
    rw [readItems, show readItem false ' ' (override (otherKind kind) second).toList =
      (none, (override (otherKind kind) second).toList) from rfl]
    rfl
  rw [readItems_override true kind first (by intro c hc; cases hc; decide), hblank,
    readItems_end]

/-- The overrides in the comments of a note are those of the note. -/
theorem ofFragments_comments (note : Note) :
    Overrides.ofFragments (note.comments.map fun comment => overrideText comment.text comment.style) =
      Overrides.ofItems note.items := by
  have hone (kind : Conversion) (payload : Payload) :
      overrideText ("//< " ++ override kind payload) .line = override kind payload :=
    overrideText_mark (override_trimmed kind payload) (lineFeed_notMem_override kind payload)
  cases note with
  | absent =>
    change Overrides.ofFragments [] = _
    rw [ofFragments_of_trimmed (by simp)]
    simp [join, items, readItems]
  | empty =>
    -- The comment is dropped, because nothing stands behind its mark.
    change Overrides.ofFragments [] = _
    rw [ofFragments_of_trimmed (by simp)]
    simp [join, items, readItems]
  | single kind payload =>
    change Overrides.ofFragments [overrideText ("//< " ++ override kind payload) .line] = _
    rw [hone, ofFragments_of_trimmed (by simpa using override_trimmed kind payload)]
    simp [join, readItems_end, items]
  | double kind first second below =>
    cases below with
    | true =>
      change Overrides.ofFragments [overrideText ("//< " ++ override kind first) .line,
        overrideText ("//< " ++ override (otherKind kind) second) .line] = _
      rw [hone, hone, ofFragments_of_trimmed (by simp [override_trimmed])]
      simp [join, readItems_double, items]
    | false =>
      have htrimmed := bothOverrides_trimmed kind first second
      change Overrides.ofFragments [overrideText ("//< " ++ bothOverrides kind first second) .line] = _
      rw [overrideText_mark htrimmed (lineFeed_notMem_bothOverrides kind first second),
        ofFragments_of_trimmed (by simpa using htrimmed)]
      simp [join, bothOverrides, readItems_double, items]

end Note

end EnumConverter.Printing
