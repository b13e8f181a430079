import EnumConverter.Annotation.Override
import EnumConverter.Proofs.Indexed.Lexer

namespace EnumConverter.Annotation

open Source Text

section Readers

variable (chars : List Char)

/-- One character of a literal. -/
def literalRound (value : List Char) (index : Nat) (c : Char) :
    Checked (Round (List Char) (Option (List Char × Nat))) :=
  .ok (if c = '"' then .done (some (value, index + 1))
    else if c = '\\' then
      match chars[index + 1]?.filter (fun escaped => escaped = '"' || escaped = '\\') with
      | some escaped => .next (value ++ [escaped]) (index + 2)
      | none => .next (value ++ [c]) (index + 1)
    else .next (value ++ [c]) (index + 1))

/-- The payload of a literal whose opening quote was read, behind the part `value` of it, and where the
literal ends. -/
def readLiteralAt : List Char → Nat → Checked (Option (List Char × Nat)) :=
  loop chars (fun _ _ => .ok none) (literalRound chars)

/-- The tag at an index, and where it ends. -/
def readTagAt (index : Nat) : Checked (List Char × Nat) := do
  let stop ← runStop chars isTagChar index
  let tag ← Checked.slice chars index stop
  .ok (tag, stop)

/-- Whether the text ends at an index or a blank stands there. -/
def endsWordAt (index : Nat) : Checked Bool :=
  if chars.length ≤ index then .ok true else isBlank <$> Checked.item chars index

/-- What follows a literal at an index, and where reading goes on. -/
def readTailAt (value : List Char) (index : Nat) : Checked (Option OverrideItem × Nat) := do
  let (tag, stop) ← readTagAt chars index
  if tag ≠ [] then
    let item := match tagKind? tag with
      | some kind => .value kind (String.ofList value)
      | none => .problem (.unknownTag (String.ofList tag) (String.ofList value))
    .ok (some item, stop)
  else
    let next ← runStop chars isBlank index
    if index < next then
      let (word, stop) ← readTagAt chars next
      if ← endsWordAt chars stop then
        match tagKind? word with
        | some kind => .ok (some (.problem (.detachedTag kind (String.ofList value))), stop)
        | none => .ok (none, index)
      else .ok (none, index)
    else .ok (none, index)

/-- What a word of free text at an index says, and where reading goes on. -/
def readWordAt (opensText : Bool) (index : Nat) : Checked (Option OverrideItem × Nat) := do
  let stop ← runStop chars (!endsFreeWord ·) index
  let word ← Checked.slice chars index stop
  if chars[stop]? = some '"' then
    let (tag, afterTag) ← readTagAt chars (stop + 1)
    match tagKind? tag with
    | some kind => .ok (some (.problem (.unopened kind (String.ofList word))), afterTag)
    | none => .ok (none, stop)
  else .ok ((looseTag? word opensText).map .problem, stop)

/-- One piece of a text whose first character that is not blank stands at `leading`. -/
def overrideRound (leading : Option Nat) (set : Overrides) (index : Nat) (c : Char) :
    Checked (Round Overrides Overrides) :=
  if isBlank c then .ok (.next set (index + 1))
  else if c = '"' then do
    match ← readLiteralAt chars [] (index + 1) with
    | some (value, stop) => do
      let (item, next) ← readTailAt chars value stop
      .ok (.next (item.toList.foldl .add set) next)
    | none => do
      let rest ← Checked.slice chars index chars.length
      .ok (.done (set.add (.problem
        (.unterminated (guessKind rest) (String.ofList (trimEnd rest))))))
  else do
    let (item, next) ← readWordAt chars (leading = some index) index
    .ok (.next (item.toList.foldl .add set) next)

/-- The overrides of a text from an index on, behind those that were read before. -/
def overridesAt (leading : Option Nat) : Overrides → Nat → Checked Overrides :=
  loop chars (fun set _ => .ok set) (overrideRound chars leading)

end Readers

variable {chars cs : List Char}

theorem readLiteralAt_escape (value : List Char) {c : Char} (hc : c = '"' ∨ c = '\\')
    (h : '\\' :: c :: cs <:+ chars) :
    readLiteralAt chars value (offset chars ('\\' :: c :: cs)) =
      readLiteralAt chars (value ++ [c]) (offset chars cs) := by
  have hstop : offset chars cs = offset chars ('\\' :: c :: cs) + 2 :=
    offset_append (show ['\\', c] ++ cs <:+ chars from h)
  refine loop_next h (List.suffix_cons c cs) ?_
  simp [literalRound, peek_offset h, Option.filter, hc, hstop]

theorem readLiteralAt_offset (value : List Char) (h : cs <:+ chars) :
    readLiteralAt chars value (offset chars cs) =
      .ok ((readLiteral cs).map fun (payload, rest) => (value ++ payload, offset chars rest)) := by
  fun_induction readLiteral cs generalizing value with
  | case1 => exact loop_nil
  | case2 cs => exact loop_done h (by simp [literalRound, offset_cons h])
  | case3 cs ih | case4 cs ih =>
    have hcs := (List.suffix_cons ..).trans ((List.suffix_cons ..).trans h)
    rw [readLiteralAt_escape value (by simp) h, ih _ hcs]
    cases readLiteral cs <;> simp
  | case5 c cs hquote hescaped hbackslash ih =>
    have hquote : c ≠ '"' := hquote
    have hround : literalRound chars value (offset chars (c :: cs)) c =
        .ok (.next (value ++ [c]) (offset chars cs)) := by
      have hplain : c = '\\' →
          cs.head?.filter (fun escaped => escaped = '"' || escaped = '\\') = none := by
        rintro rfl
        cases cs with
        | nil => rfl
        | cons d cs =>
          have hquoted : d ≠ '"' := fun hd => hescaped cs rfl (hd ▸ rfl)
          have hdouble : d ≠ '\\' := fun hd => hbackslash cs rfl (hd ▸ rfl)
          simp [Option.filter, hquoted, hdouble]
      rw [literalRound, if_neg hquote, peek_offset h, offset_cons h]
      by_cases hc : c = '\\'
      · rw [if_pos hc, hplain hc]
      · rw [if_neg hc]
    refine (loop_next h List.suffix_rfl hround).trans ((ih _ ((List.suffix_cons c cs).trans h)).trans ?_)
    cases readLiteral cs <;> simp

theorem takeRun_eq (test : Char → Bool) (cs : List Char) :
    takeRun test cs = ⟨cs.takeWhile test, cs.dropWhile test⟩ := by
  induction cs with
  | nil => rfl
  | cons c cs ih => by_cases hc : test c <;> simp [takeRun, hc, ih, Cut.extend]

theorem runStop_dropWhile (test : Char → Bool) (h : cs <:+ chars) :
    runStop chars test (offset chars cs) = .ok (offset chars (cs.dropWhile test)) := by
  rw [runStop_offset test h, takeRun_eq]

theorem slice_takeWhile (test : Char → Bool) (h : cs <:+ chars) :
    Checked.slice chars (offset chars cs) (offset chars (cs.dropWhile test)) =
      .ok (cs.takeWhile test) := by
  have hcut : cs.takeWhile test ++ cs.dropWhile test = cs := List.takeWhile_append_dropWhile
  have hslice := slice_offset (hcut.symm ▸ h)
  rwa [hcut] at hslice

theorem readTagAt_offset (h : cs <:+ chars) :
    readTagAt chars (offset chars cs) =
      .ok (cs.takeWhile isTagChar, offset chars (cs.dropWhile isTagChar)) := by
  rw [readTagAt, runStop_dropWhile _ h, Checked.ok_bind, slice_takeWhile _ h]
  rfl

theorem endsWordAt_offset (h : cs <:+ chars) :
    endsWordAt chars (offset chars cs) = .ok (cs.head?.all isBlank) := by
  cases cs with
  | nil => simp [endsWordAt]
  | cons c cs =>
    rw [endsWordAt, if_neg (Nat.not_le_of_lt (offset_lt h)), item_offset h]
    rfl

/-- Blanks stand here if and only if skipping them moves the index. -/
theorem lt_offset_trimStart (h : cs <:+ chars) :
    offset chars cs < offset chars (trimStart cs) ↔ cs.head?.any isBlank = true := by
  cases cs with
  | nil => simp [trimStart]
  | cons c cs =>
    by_cases hc : isBlank c
    · have hskip : trimStart (c :: cs) = trimStart cs := by simp [trimStart, hc]
      have hlt := offset_lt_offset h
        (show (trimStart (c :: cs)).length < (c :: cs).length from
          hskip ▸ Nat.lt_succ_of_le (length_dropWhile_le ..))
      simp [hc, hlt]
    · have hskip : trimStart (c :: cs) = c :: cs := by simp [trimStart, hc]
      simp [hskip, hc]

theorem readTailAt_offset (value : List Char) (h : cs <:+ chars) :
    readTailAt chars value (offset chars cs) =
      .ok ((readTail value cs).1, offset chars (readTail value cs).2) := by
  have hnext : trimStart cs <:+ chars := (List.dropWhile_suffix _).trans h
  have hrest := (List.dropWhile_suffix isTagChar).trans hnext
  simp only [readTailAt, readTagAt_offset h, Checked.ok_bind, readTail]
  split
  · rfl
  simp only [runStop_dropWhile isBlank h, Checked.ok_bind]
  have hblank := lt_offset_trimStart h
  unfold trimStart at *
  by_cases hhead : cs.head?.any isBlank
  · simp only [if_pos (hblank.2 hhead), readTagAt_offset hnext, Checked.ok_bind,
      endsWordAt_offset hrest]
    cases tagKind? ((cs.dropWhile isBlank).takeWhile isTagChar) with
    | none => simp
    | some kind =>
      by_cases hend : ((cs.dropWhile isBlank).dropWhile isTagChar).head?.all isBlank <;>
        simp [hhead, hend]
  · rw [if_neg (mt hblank.1 hhead)]
    cases tagKind? ((cs.dropWhile isBlank).takeWhile isTagChar) <;> simp [hhead]

theorem readWordAt_offset (opensText : Bool) (h : cs <:+ chars) :
    readWordAt chars opensText (offset chars cs) =
      .ok ((readWord opensText cs).1, offset chars (readWord opensText cs).2) := by
  have hrest : cs.dropWhile (!endsFreeWord ·) <:+ chars := (List.dropWhile_suffix _).trans h
  simp only [readWordAt, runStop_dropWhile _ h, slice_takeWhile _ h, Checked.ok_bind,
    getElem?_offset hrest, readWord]
  generalize cs.dropWhile (!endsFreeWord ·) = rest at hrest
  by_cases hquote : rest.head? = some '"'
  · obtain ⟨tail, rfl⟩ := List.head?_eq_some_iff.1 hquote
    rw [if_pos hquote, offset_cons hrest, readTagAt_offset ((List.suffix_cons ..).trans hrest)]
    cases htag : tagKind? (tail.takeWhile isTagChar) <;> simp [htag]
  · rw [if_neg hquote]
    split
    · simp at hquote
    · rfl

theorem readLiteral_suffix {value rest : List Char} (h : readLiteral cs = some (value, rest)) :
    rest <:+ cs := by
  fun_induction readLiteral cs generalizing value rest with
  | case1 => simp at h
  | case2 cs =>
    obtain ⟨-, rfl⟩ : [] = value ∧ cs = rest := by simpa using h
    exact List.suffix_cons ..
  | case3 cs ih | case4 cs ih =>
    obtain ⟨⟨payload, left⟩, hread, heq⟩ := Option.map_eq_some_iff.1 h
    obtain ⟨-, rfl⟩ := Prod.mk.inj heq
    exact (ih hread).trans ((List.suffix_cons ..).trans (List.suffix_cons ..))
  | case5 c cs _ _ _ ih =>
    obtain ⟨⟨payload, left⟩, hread, heq⟩ := Option.map_eq_some_iff.1 h
    obtain ⟨-, rfl⟩ := Prod.mk.inj heq
    exact (ih hread).trans (List.suffix_cons ..)

theorem readTail_suffix (value cs : List Char) : (readTail value cs).2 <:+ cs := by
  unfold readTail
  dsimp only
  split
  · exact List.dropWhile_suffix _
  split
  · split
    · exact (List.dropWhile_suffix _).trans (List.dropWhile_suffix _)
    · exact List.suffix_rfl
  · exact List.suffix_rfl

theorem readWord_suffix (opensText : Bool) (cs : List Char) : (readWord opensText cs).2 <:+ cs := by
  have hword : cs.dropWhile (!endsFreeWord ·) <:+ cs := List.dropWhile_suffix _
  unfold readWord
  dsimp only
  split
  · rename_i rest hrest
    rw [hrest] at hword
    split
    · exact (List.dropWhile_suffix _).trans ((List.suffix_cons ..).trans hword)
    · exact hword
  · exact hword

theorem readItem_suffix (opensText : Bool) (c : Char) (cs : List Char) :
    (readItem opensText c cs).2 <:+ cs := by
  refine suffix_of_length_lt ?_ (length_readItem opensText c cs)
  unfold readItem
  split
  · exact List.suffix_cons ..
  split
  · split
    · rename_i value rest hread
      exact (readTail_suffix value rest).trans ((readLiteral_suffix hread).trans (List.suffix_cons ..))
    · exact List.nil_suffix
  · exact readWord_suffix ..

/-- A character that is not blank is the first such character if and only if all before it are. -/
theorem findIdx?_eq_offset {c : Char} (hc : isBlank c = false) (h : c :: cs <:+ chars) :
    decide (chars.findIdx? (!isBlank ·) = some (offset chars (c :: cs))) =
      (chars.take (offset chars (c :: cs))).all isBlank := by
  obtain ⟨before, rfl⟩ := h
  have hfirst : (c :: cs).findIdx? (!isBlank ·) = some 0 := by simp [List.findIdx?_cons, hc]
  rw [offset_append_right, List.take_left, List.findIdx?_append, hfirst]
  cases hfind : before.findIdx? (!isBlank ·) with
  | none =>
    have hall : before.all isBlank = true :=
      List.all_eq_true.2 fun d hd => by simpa using List.findIdx?_eq_none_iff.1 hfind d hd
    simp [hall]
  | some index =>
    obtain ⟨hlt, htext, -⟩ := List.findIdx?_eq_some_iff_getElem.1 hfind
    have hall : before.all isBlank = false :=
      List.all_eq_false.2 ⟨before[index], List.getElem_mem hlt, by simpa using htext⟩
    simp [hall, Nat.ne_of_lt hlt]

/-- Behind a piece that is not blank no piece opens the text. -/
theorem opensText_next {c : Char} {rest : List Char} (h : c :: cs <:+ chars) (hrest : rest <:+ cs)
    (hblank : isBlank c = true → rest = cs) :
    (chars.take (offset chars rest)).all isBlank =
      ((chars.take (offset chars (c :: cs))).all isBlank && isBlank c) := by
  obtain ⟨between, rfl⟩ := hrest
  obtain ⟨before, rfl⟩ := h
  have htaken : (before ++ c :: (between ++ rest)).take
      (offset (before ++ c :: (between ++ rest)) rest) = before ++ c :: between := by
    rw [← List.cons_append, ← List.append_assoc, offset_append_right, List.take_left]
  rw [htaken, offset_append_right, List.take_left]
  by_cases hc : isBlank c
  · obtain rfl : between = [] := by simpa using hblank hc
    simp
  · simp [hc]

theorem readItem_unclosed (opensText : Bool) (hread : readLiteral cs = none) :
    readItem opensText '"' cs =
      (some (.problem
        (.unterminated (guessKind ('"' :: cs)) (String.ofList (trimEnd ('"' :: cs))))), []) := by
  rw [readItem, if_neg (by decide), if_pos rfl, hread]

/-- A literal that is not closed is the last piece of a text. -/
theorem overrideRound_unclosed (leading : Option Nat) (set : Overrides) (opensText : Bool)
    (h : '"' :: cs <:+ chars) (hread : readLiteral cs = none) :
    overrideRound chars leading set (offset chars ('"' :: cs)) '"' =
      .ok (.done ((readItem opensText '"' cs).1.toList.foldl .add set)) := by
  have hslice := slice_offset (show '"' :: cs ++ [] <:+ chars by simpa using h)
  rw [List.append_nil, offset_nil] at hslice
  rw [overrideRound, if_neg (by decide), if_pos rfl, offset_cons h,
    readLiteralAt_offset [] ((List.suffix_cons ..).trans h), hread,
    readItem_unclosed opensText hread]
  simp [hslice]

theorem overrideRound_offset (set : Overrides) {c : Char} (h : c :: cs <:+ chars)
    (hclosed : c = '"' → readLiteral cs ≠ none) :
    let opensText := (chars.take (offset chars (c :: cs))).all isBlank
    overrideRound chars (chars.findIdx? (!isBlank ·)) set (offset chars (c :: cs)) c =
      .ok (.next ((readItem opensText c cs).1.toList.foldl .add set)
        (offset chars (readItem opensText c cs).2)) := by
  intro opensText
  have hcs := (List.suffix_cons c cs).trans h
  unfold overrideRound readItem
  split
  · simp [offset_cons h]
  rename_i hblank
  split
  · rename_i hquote
    rw [offset_cons h, readLiteralAt_offset [] hcs]
    cases hread : readLiteral cs with
    | none => exact absurd hread (hclosed hquote)
    | some read =>
      obtain ⟨value, rest⟩ := read
      have hrest := (readLiteral_suffix hread).trans hcs
      simp [readTailAt_offset value hrest]
  · rw [findIdx?_eq_offset (by simpa using hblank) h, readWordAt_offset _ h]
    rfl

theorem overridesAt_offset (set : Overrides) (opensText : Bool) (h : cs <:+ chars)
    (hopens : opensText = (chars.take (offset chars cs)).all isBlank) :
    overridesAt chars (chars.findIdx? (!isBlank ·)) set (offset chars cs) =
      .ok ((readItems opensText cs).foldl .add set) := by
  fun_induction readItems opensText cs generalizing set with
  | case1 => exact loop_nil
  | case2 opensText c cs read ih =>
    rw [List.foldl_append]
    by_cases hunclosed : c = '"' ∧ readLiteral cs = none
    · obtain ⟨rfl, hread⟩ := hunclosed
      have hend : read.2 = [] := by simp only [read, readItem_unclosed opensText hread]
      rw [hend, readItems, List.foldl_nil]
      exact loop_done h (overrideRound_unclosed _ set opensText h hread)
    · have hclosed : c = '"' → readLiteral cs ≠ none := fun hc hread => hunclosed ⟨hc, hread⟩
      have hrest := readItem_suffix opensText c cs
      have hround := overrideRound_offset set h hclosed
      rw [← hopens] at hround
      have hblank : isBlank c = true → read.2 = cs := fun hc => by simp [read, readItem, hc]
      refine (loop_next h hrest hround).trans (ih _ (hrest.trans ((List.suffix_cons c cs).trans h)) ?_)
      rw [opensText_next h hrest hblank, hopens]

/-- The overrides in the texts of all comments behind an enumerator, by index. -/
def overridesOfAt (fragments : List String) : Checked Overrides :=
  let texts := (fragments.map String.toList).filter (!isBlankText ·)
  let chars := join [' '] texts
  overridesAt chars (chars.findIdx? (!isBlank ·)) {} 0

theorem overridesOfAt_eq (fragments : List String) :
    overridesOfAt fragments = .ok (Overrides.ofFragments fragments) := by
  have hread := overridesAt_offset {} true
    (List.suffix_refl (join [' '] ((fragments.map String.toList).filter (!isBlankText ·))))
    (by simp)
  rw [offset_self] at hread
  simpa [overridesOfAt, Overrides.ofFragments, Overrides.ofText, Overrides.ofItems] using hread

end EnumConverter.Annotation
