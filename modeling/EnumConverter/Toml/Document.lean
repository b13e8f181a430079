import EnumConverter.Toml.Quoted
import EnumConverter.Toml.Scalar

namespace EnumConverter.Toml

/-- Whether a character can be part of a key without quotes. -/
def isKeyChar (c : Char) : Bool :=
  c.isAlphanum || c = '_' || c = '-'

/-- The longest start of characters that pass a test, if there is one. -/
def takeRun (test : Char → Bool) : (cs : List Char) → Option (Parsed (List Char) cs)
  | [] => none
  | c :: rest =>
    if test c then
      some ⟨c :: rest.takeWhile test, rest.dropWhile test,
        Nat.lt_succ_of_le (length_dropWhile_le test rest)⟩
    else none

/-- What follows a character at the start of a text. -/
def charThen (c : Char) : (cs : List Char) → Option (Parsed Unit cs)
  | [] => none
  | d :: rest => if d = c then some ⟨(), rest, length_lt_cons d rest⟩ else none

/-- What follows a character that stands behind a gap. -/
def gapThen (c : Char) (cs : List Char) : Option (Parsed Unit cs) :=
  (charThen c (skipGap cs)).map (·.widen (length_skipGap_le cs))

/-- Reads one part of a key behind a gap. -/
def keyPart (cs : List Char) : Option (Parsed String cs) :=
  match lineString (skipGap cs) with
  | some part => some (part.widen (length_skipGap_le cs))
  | none => (takeRun isKeyChar (skipGap cs)).map fun part =>
    (part.map String.ofList).widen (length_skipGap_le cs)

/-- Reads the parts of a key with dots between them. -/
def keyParts (cs : List Char) : Option (Parsed (List String) cs) := do
  let ⟨part, rest, h⟩ ← keyPart cs
  match gapThen '.' rest with
  | some ⟨_, next, hnext⟩ =>
    let ⟨parts, after, hafter⟩ ← keyParts next
    some ⟨part :: parts, after, by omega⟩
  | none => some ⟨[part], rest, h⟩
termination_by cs.length

/-- How many parts a key can have, and how many lists and tables can be nested in a value. -/
def depthLimit : Nat := 80

/-- Reads a key with dots between its parts. -/
def dottedKey (cs : List Char) : Option (Parsed (List String) cs) :=
  (keyParts cs).filter (·.value.length ≤ depthLimit)

/-- What follows the comment at the start of a text. A character that may not stand in a comment ends
it, and no line can go on there. -/
def skipComment : List Char → List Char
  | '#' :: rest => rest.dropWhile isPlain
  | cs => cs

theorem length_skipComment_le (cs : List Char) : (skipComment cs).length ≤ cs.length := by
  unfold skipComment
  split
  · next rest => have := length_dropWhile_le isPlain rest; simp only [List.length_cons]; omega
  · exact Nat.le_refl _

/-- Drops blanks, comments and line ends. -/
def skipTrivia (cs : List Char) : List Char :=
  match _h : skipLines cs with
  | '#' :: rest => skipTrivia (rest.dropWhile isPlain)
  | rest => rest
termination_by cs.length
decreasing_by
  have hlines := length_skipLines_le cs
  have hcomment := length_dropWhile_le isPlain rest
  rw [_h, List.length_cons] at hlines
  omega

theorem length_skipTrivia_le (cs : List Char) : (skipTrivia cs).length ≤ cs.length := by
  fun_induction skipTrivia cs with
  | case1 cs rest h ih =>
    have hlines := length_skipLines_le cs
    have hcomment := length_dropWhile_le isPlain rest
    rw [h, List.length_cons] at hlines
    omega
  | case2 cs h => exact length_skipLines_le cs

/-- What follows a character that stands behind blanks, comments and line ends. -/
def triviaThen (c : Char) (cs : List Char) : Option (Parsed Unit cs) :=
  (charThen c (skipTrivia cs)).map (·.widen (length_skipTrivia_le cs))

/-- Reads the word of a number, a boolean or a time. A date takes a time of day with it that stands
behind a single blank. -/
def scalarWord (cs : List Char) : Option (Parsed (List Char) cs) :=
  match takeRun isWordChar cs with
  | none => none
  | some ⟨word, ' ' :: next, h⟩ =>
    if isDateBefore word next then
      some ⟨word ++ ' ' :: next.takeWhile isWordChar, next.dropWhile isWordChar,
        Nat.lt_of_le_of_lt (length_dropWhile_le isWordChar next) (Nat.lt_of_succ_lt h)⟩
    else some ⟨word, ' ' :: next, h⟩
  | some parsed => some parsed

/-- Reads a number, a boolean or a time. -/
def scalarValue (cs : List Char) : Option (Parsed Value cs) := do
  let ⟨word, after, h⟩ ← scalarWord cs
  some ⟨← scalarOfWord? word, after, h⟩

mutual

/-- Reads a value behind a gap. There is `room` for so many lists and tables in each other. -/
def value (room : Nat) (cs : List Char) : Option (Parsed Value cs) :=
  match gapThen '[' cs with
  | some ⟨_, rest, hrest⟩ =>
    if room = 0 then none
    else do
      let ⟨items, after, h⟩ ← arrayItems (room - 1) rest
      some ⟨.array items, after, by omega⟩
  | none =>
    match gapThen '\x7b' cs with
    | some ⟨_, rest, hrest⟩ =>
      if room = 0 then none
      else do
        let ⟨entries, after, h⟩ ← inlineEntries (room - 1) [] rest
        some ⟨.table (entriesToValues entries), after, by omega⟩
    | none =>
      let scalar := match anyString (skipGap cs) with
        | some text => some (text.map Value.string)
        | none => scalarValue (skipGap cs)
      scalar.map (·.widen (length_skipGap_le cs))
termination_by 2 * cs.length

/-- Reads the items of an array behind its bracket or behind a comma. A comma may stand behind the last
item. -/
def arrayItems (room : Nat) (cs : List Char) : Option (Parsed (List Value) cs) :=
  match triviaThen ']' cs with
  | some ⟨_, after, h⟩ => some ⟨[], after, h⟩
  | none => do
    have hstart := length_skipTrivia_le cs
    let ⟨item, rest, hrest⟩ ← value room (skipTrivia cs)
    match triviaThen ',' rest with
    | some ⟨_, next, hnext⟩ =>
      let ⟨items, after, h⟩ ← arrayItems room next
      some ⟨item :: items, after, by omega⟩
    | none =>
      let ⟨_, after, h⟩ ← triviaThen ']' rest
      some ⟨[item], after, by omega⟩
termination_by 2 * cs.length + 1

/-- Reads the assignments of a table in braces behind its brace or behind a comma, after those in
`entries`. A comma may stand behind the last one, and only keys have to be on one line. -/
def inlineEntries (room : Nat) (entries : Entries) (cs : List Char) : Option (Parsed Entries cs) :=
  match triviaThen '\x7d' cs with
  | some ⟨_, after, h⟩ => some ⟨entries, after, h⟩
  | none => do
    have hstart := length_skipTrivia_le cs
    let ⟨key, behind, hkey⟩ ← dottedKey (skipTrivia cs)
    let ⟨_, right, hright⟩ ← triviaThen '=' behind
    have hvalue := length_skipTrivia_le right
    let ⟨item, rest, hrest⟩ ← value room (skipTrivia right)
    let entries ← entries.assign (.closed item) key
    match triviaThen ',' rest with
    | some ⟨_, next, hnext⟩ =>
      let ⟨entries, after, h⟩ ← inlineEntries room entries next
      some ⟨entries, after, by omega⟩
    | none =>
      let ⟨_, after, h⟩ ← triviaThen '\x7d' rest
      some ⟨entries, after, by omega⟩
termination_by 2 * cs.length + 1

end

/-- What follows the end of a line, with the comment before it. -/
def lineEnd? (cs : List Char) : Option { rest : List Char // rest.length ≤ cs.length } :=
  have hgap := length_skipGap_le cs
  have hcomment := length_skipComment_le (skipGap cs)
  if skipComment (skipGap cs) = [] then some ⟨[], by simp⟩
  else (afterNewline? (skipComment (skipGap cs))).map fun ended =>
    ⟨ended.rest, by have := ended.shorter; omega⟩

/-- A line that is not blank. -/
inductive Line where
  | header (path : List String)
  /-- The header of one more table of a list of tables. -/
  | listed (path : List String)
  | assignment (key : List String) (value : Value)

/-- Reads a header behind its first bracket. -/
def header (cs : List Char) : Option (Parsed Line cs) := do
  match charThen '[' cs with
  | some ⟨_, rest, hrest⟩ =>
    let ⟨path, behind, hpath⟩ ← dottedKey rest
    let ⟨_, next, hnext⟩ ← gapThen ']' behind
    let ⟨_, after, h⟩ ← charThen ']' next
    some ⟨.listed path, after, by omega⟩
  | none =>
    let ⟨path, behind, hpath⟩ ← dottedKey cs
    let ⟨_, after, h⟩ ← gapThen ']' behind
    some ⟨.header path, after, by omega⟩

/-- Reads a line up to its end. -/
def line (cs : List Char) : Option (Parsed Line cs) := do
  match gapThen '[' cs with
  | some ⟨_, rest, hrest⟩ =>
    let ⟨content, after, h⟩ ← header rest
    some ⟨content, after, by omega⟩
  | none =>
    let ⟨key, behind, hkey⟩ ← dottedKey cs
    let ⟨_, right, hright⟩ ← gapThen '=' behind
    let ⟨item, after, h⟩ ← value depthLimit right
    some ⟨.assignment key item, after, by omega⟩

/-- Reads the lines of a document into the table `root`. Assignments go to the table of the last header,
which stands at the path `current`. -/
def readLines (root : Entries) (current : List String) (cs : List Char) : Option Entries :=
  if skipTrivia cs = [] then some root
  else do
    have _hstart := length_skipTrivia_le cs
    let ⟨content, behind, _hbehind⟩ ← line (skipTrivia cs)
    let ⟨after, _hafter⟩ ← lineEnd? behind
    match content with
    | .header path => readLines (← root.openTable path) path after
    | .listed path => readLines (← root.openListed path) path after
    | .assignment key item =>
      readLines (← root.alter (·.assign (.closed item) key) current) current after
termination_by cs.length

/-- The table that a text stands for, or nothing if the text has a fault. A byte order mark at the start
does not count. -/
def parse? (text : String) : Option (List (String × Value)) :=
  let cs := match text.toList with
    | '\uFEFF' :: rest => rest
    | cs => cs
  (readLines [] [] cs).map entriesToValues

end EnumConverter.Toml
