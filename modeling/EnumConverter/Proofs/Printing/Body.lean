import EnumConverter.Proofs.Printing.Block
import EnumConverter.Proofs.Printing.Note

namespace EnumConverter.Printing

open Source Scan Text

/-- The enumerator as written that is read from a member on the given line. -/
def Member.raw (member : Member) (line : Nat) : RawEnumerator where
  name := member.name.text
  position := ⟨line, 1⟩
  trailing := member.note.comments

/-- The enumerators as written that are read from members whose lines start at `line`. -/
def rawEnumerators (line : Nat) : List Member → List RawEnumerator
  | [] => []
  | member :: members => member.raw line :: rawEnumerators (line + member.lines.length) members

/-- A comment of one line that starts with the continuation mark and does not end with a blank. -/
structure Marked (comment : String) : Prop where
  spelled : ∃ text, comment.toList = '/' :: '/' :: '<' :: text
  oneLine : '\n' ∉ comment.toList
  trimmed : trimEnd comment.toList = comment.toList

theorem marked_append {text : String} (htrimmed : Trimmed text.toList)
    (hfeed : '\n' ∉ text.toList) : Marked ("//< " ++ text) := by
  have htext : ("//< " ++ text).toList = '/' :: '/' :: '<' :: ' ' :: text.toList := by simp
  have hmark : Trimmed ['/', '/', '<'] := ⟨by simp, by rintro c ⟨⟩; rfl, by rintro c ⟨⟩; rfl⟩
  refine ⟨⟨' ' :: text.toList, htext⟩, by simpa [htext] using hfeed, ?_⟩
  rw [htext]
  exact trimEnd_of_last (hmark.append htrimmed [' ']).last

theorem marked_override (kind : Conversion) (payload : Payload) :
    Marked ("//< " ++ override kind payload) :=
  marked_append (override_trimmed kind payload) (lineFeed_notMem_override kind payload)

theorem marked_beside {note : Note} {comment : String} (h : note.beside = some comment) :
    Marked comment := by
  cases note with
  | absent => simp [Note.beside] at h
  | empty =>
    obtain rfl : "//<" = comment := by simpa [Note.beside] using h
    exact ⟨⟨[], rfl⟩, by decide, by decide⟩
  | single kind payload =>
    obtain rfl : _ = comment := by simpa only [Note.beside, Option.some.injEq] using h
    exact marked_override kind payload
  | double kind first second below =>
    cases below with
    | true =>
      obtain rfl : _ = comment := by simpa only [Note.beside, Option.some.injEq] using h
      exact marked_override kind first
    | false =>
      obtain rfl : _ = comment := by simpa only [Note.beside, Option.some.injEq] using h
      exact marked_append (bothOverrides_trimmed kind first second)
        (lineFeed_notMem_bothOverrides kind first second)

theorem marked_below {note : Note} {comment : String} (h : note.below = some comment) :
    Marked comment := by
  unfold Note.below at h
  split at h
  · obtain rfl : _ = comment := by simpa only [Option.some.injEq] using h
    exact marked_override ..
  · simp at h

theorem Marked.isContinuation {comment : String} (h : Marked comment) :
    isContinuation comment = true := by
  obtain ⟨text, htext⟩ := h.spelled
  rw [Source.isContinuation, htext]
  rfl

/-- A marked comment is one token, and its line feed follows. -/
theorem Marked.tokens {comment : String} (h : Marked comment) (here : Cursor) (rest : List Char) :
    here.tokens (comment.toList ++ '\n' :: rest) =
      ⟨.comment ⟨comment, .line, here.codeLine = here.position.line, here.position.line⟩,
        here.position⟩ :: ((here.pastComment comment.toList).pastBlank '\n').tokens rest := by
  obtain ⟨text, htext⟩ := h.spelled
  have hfeed : '\n' ∉ '<' :: text := by
    have hline := h.oneLine
    rw [htext] at hline
    simpa using hline
  have hread := here.tokens_lineComment hfeed (.inr rfl : '\n' :: rest = [] ∨ _)
  have hblank : isBlank '\n' = true := by decide
  rw [← htext] at hread
  rw [hread, Cursor.tokens_blank _ hblank, Cursor.lineComment, Cursor.comment, h.trimmed,
    String.ofList_toList]

/-- The state of the reader between two enumerators. -/
def between (earlier : List RawEnumerator) (ended : Option Nat) : BodyState :=
  { enumerators := earlier, attachedEnd := ended }

variable {here : Cursor} {line : Nat}

theorem readBody_name (earlier : List RawEnumerator) (ended : Option Nat) (name : String)
    (first second : Position) (rest : List Token) :
    readBody (between earlier ended) (⟨.ident name, first⟩ :: ⟨.punct ',', second⟩ :: rest) =
      readBody (between ({ name, position := first } :: earlier) none) rest := rfl

/-- A comment that is attached to the latest enumerator. -/
theorem readBody_attached {latest : RawEnumerator} {earlier : List RawEnumerator}
    {ended : Option Nat} {comment : Comment} {position : Position}
    (h : (between (latest :: earlier) ended).attaches comment position.line = true)
    (rest : List Token) :
    readBody (between (latest :: earlier) ended) (⟨.comment comment, position⟩ :: rest) =
      readBody (between ({ latest with trailing := latest.trailing ++
        [⟨comment.text, comment.style⟩] } :: earlier) (some comment.endLine)) rest := by
  have hstate : (between (latest :: earlier) ended).onComment comment position.line =
      between ({ latest with trailing := latest.trailing ++ [⟨comment.text, comment.style⟩] } ::
        earlier) (some comment.endLine) := by
    change (if (between (latest :: earlier) ended).attaches comment position.line then _ else _) = _
    rw [if_pos h]
    rfl
  rw [← hstate]
  rfl

/-- The cursor behind the name of an enumerator and its comma. -/
def pastName (here : Cursor) (name : Name) : Cursor :=
  here.pastCode (name.text.toList ++ [','])

theorem line_pastName (here : Cursor) (name : Name) :
    (pastName here name).position.line = here.position.line := by
  refine Position.line_after_of_notMem _ ?_
  simpa using lineFeed_notMem_of_isIdentifier name.isWord

theorem readBody_pastName (h : here.AtLine line) (name : Name) (earlier : List RawEnumerator)
    (ended : Option Nat) (rest : List Char) :
    readBody (between earlier ended) (here.tokens (name.text.toList ++ ',' :: rest)) =
      readBody (between (⟨name.text, ⟨line, 1⟩, []⟩ :: earlier) none)
        ((pastName here name).tokens rest) := by
  have hcomma : StopsWord (',' :: rest) := stopsWord_cons (by decide) (by decide) (by decide) rest
  rw [here.tokens_word name.isWord hcomma, Cursor.tokens_mark _ (by decide), readBody_name,
    h.position, String.ofList_toList, Cursor.pastCode_pastCode]
  rfl

/-- The line of an enumerator. -/
theorem readBody_line (h : here.AtLine line) (member : Member) (earlier : List RawEnumerator)
    (ended : Option Nat) :
    ∃ (there : Cursor) (ended' : Option Nat), there.AtLine (line + 1) ∧
      (member.note.beside.isSome → ended' = some line) ∧
      ∀ rest, readBody (between earlier ended) (here.tokens (member.line.toList ++ '\n' :: rest)) =
        readBody (between (⟨member.name.text, ⟨line, 1⟩,
          member.note.beside.toList.map (⟨·, .line⟩)⟩ :: earlier) ended') (there.tokens rest) := by
  obtain ⟨name, note⟩ := member
  have hline : (pastName here name).position.line = line := by rw [line_pastName, h.position]
  cases hbeside : note.beside with
  | none =>
    refine ⟨(pastName here name).pastBlank '\n', none, ?_, by simp, ?_⟩
    · exact Cursor.atLine_pastBlank hline (Nat.le_of_eq hline)
    · intro rest
      have htext : (Member.mk name note).line.toList ++ '\n' :: rest =
          name.text.toList ++ ',' :: '\n' :: rest := by simp [Member.line, hbeside]
      rw [htext, readBody_pastName h, Cursor.tokens_blank _ (by decide)]
      rfl
  | some comment =>
    have hmarked := marked_beside hbeside
    have hmiddle : ((pastName here name).pastBlank ' ').position.line = line := hline
    have hend : (((pastName here name).pastBlank ' ').pastComment comment.toList).position.line =
        line := by
      rw [Cursor.position_pastComment, Position.line_after_of_notMem _ hmarked.oneLine, hmiddle]
    refine ⟨(((pastName here name).pastBlank ' ').pastComment comment.toList).pastBlank '\n',
      some line, ?_, by simp, ?_⟩
    · exact Cursor.atLine_pastBlank hend (Nat.le_of_eq hline)
    · intro rest
      have htext : (Member.mk name note).line.toList ++ '\n' :: rest =
          name.text.toList ++ ',' :: ' ' :: (comment.toList ++ '\n' :: rest) := by
        simp [Member.line, hbeside]
      have htrailing : ((pastName here name).pastBlank ' ').codeLine =
          ((pastName here name).pastBlank ' ').position.line := rfl
      rw [htext, readBody_pastName h, Cursor.tokens_blank _ (by decide), hmarked.tokens,
        readBody_attached (by simp [BodyState.attaches, htrailing])]
      rw [hmiddle]
      rfl

/-- The lines of a member are read as one enumerator with the comments of its note. -/
theorem readBody_member (h : here.AtLine line) (member : Member) (earlier : List RawEnumerator)
    (ended : Option Nat) :
    ∃ (there : Cursor) (ended' : Option Nat), there.AtLine (line + member.lines.length) ∧
      ∀ rest, readBody (between earlier ended) (here.tokens ((unlines member.lines).toList ++ rest)) =
        readBody (between (member.raw line :: earlier) ended') (there.tokens rest) := by
  obtain ⟨middle, ended', hmiddle, hended, hread⟩ := readBody_line h member earlier ended
  cases hbelow : member.note.below with
  | none =>
    refine ⟨middle, ended', by simpa [Member.lines, hbelow] using hmiddle, ?_⟩
    intro rest
    have htext : (unlines member.lines).toList ++ rest = member.line.toList ++ '\n' :: rest := by
      simp [Member.lines, hbelow, unlines]
    rw [htext, hread]
    simp [Member.raw, Note.comments, hbelow]
  | some comment =>
    have hmarked := marked_below hbelow
    have hsome : member.note.beside.isSome := by
      unfold Note.below at hbelow
      split at hbelow <;> simp_all [Note.beside]
    have hend : (middle.pastComment comment.toList).position.line = line + 1 := by
      rw [Cursor.position_pastComment, Position.line_after_of_notMem _ hmarked.oneLine,
        hmiddle.position]
    refine ⟨(middle.pastComment comment.toList).pastBlank '\n', some (line + 1), ?_, ?_⟩
    · have hthere := Cursor.atLine_pastBlank hend (Nat.le_of_lt hmiddle.code)
      simpa [Member.lines, hbelow] using hthere
    · intro rest
      have htext : (unlines member.lines).toList ++ rest =
          member.line.toList ++ '\n' :: (comment.toList ++ '\n' :: rest) := by
        simp [Member.lines, hbelow, unlines]
      have hattaches : (between (⟨member.name.text, ⟨line, 1⟩,
          member.note.beside.toList.map (⟨·, .line⟩)⟩ :: earlier) ended').attaches
          ⟨comment, .line, middle.codeLine = middle.position.line, middle.position.line⟩
          middle.position.line = true := by
        simp [BodyState.attaches, hmarked.isContinuation, between, hended hsome, hmiddle.position]
      rw [htext, hread, hmarked.tokens, readBody_attached hattaches]
      simp [Member.raw, Note.comments, hbelow, hmiddle.position]

/-- The lines of all members are read as their enumerators. -/
theorem readBody_members (h : here.AtLine line) (members : List Member)
    (earlier : List RawEnumerator) (ended : Option Nat) :
    ∃ (there : Cursor) (ended' : Option Nat), there.AtLine (line + (memberLines members).length) ∧
      ∀ rest, readBody (between earlier ended)
          (here.tokens ((unlines (memberLines members)).toList ++ rest)) =
        readBody (between ((rawEnumerators line members).reverse ++ earlier) ended')
          (there.tokens rest) := by
  induction members generalizing here line earlier ended with
  | nil => exact ⟨here, ended, h, fun rest => rfl⟩
  | cons member members ih =>
    obtain ⟨middle, ended', hmiddle, hread⟩ := readBody_member h member earlier ended
    obtain ⟨there, ended'', hthere, hrest⟩ := ih hmiddle (member.raw line :: earlier) ended'
    refine ⟨there, ended'', ?_, ?_⟩
    · simpa [memberLines, Nat.add_assoc] using hthere
    · intro rest
      have htext : (unlines (memberLines (member :: members))).toList ++ rest =
          (unlines member.lines).toList ++ ((unlines (memberLines members)).toList ++ rest) := by
        rw [memberLines, List.flatMap_cons, toList_unlines_append, List.append_assoc]
        rfl
      rw [htext, hread, hrest]
      simp [rawEnumerators]

end EnumConverter.Printing
