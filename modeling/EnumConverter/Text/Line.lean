import EnumConverter.Text.CharClass

namespace EnumConverter.Text

/-- Drops the blanks at the start. -/
def trimStart (cs : List Char) : List Char :=
  cs.dropWhile isBlank

/-- Drops the blanks at the end. -/
def trimEnd (cs : List Char) : List Char :=
  (cs.reverse.dropWhile isBlank).reverse

/-- Drops the blanks at both ends. -/
def trim (cs : List Char) : List Char :=
  trimEnd (trimStart cs)

/-- Whether a text has nothing but blanks. -/
def isBlankText (cs : List Char) : Bool :=
  cs.all isBlank

/-- What follows `start` in a text that starts with it, and `none` for other texts. -/
def dropStart? : (start cs : List Char) → Option (List Char)
  | [], cs => some cs
  | _ :: _, [] => none
  | s :: start, c :: cs => if s = c then dropStart? start cs else none

/-- What precedes `ending` in a text that ends with it, and `none` for other texts. -/
def dropEnd? (ending cs : List Char) : Option (List Char) :=
  (dropStart? ending.reverse cs.reverse).map List.reverse

/-- A text cut at every separator. The piece after the last separator comes last, also if empty. -/
def splitAt {α : Type} [DecidableEq α] (separator : α) : List α → List (List α)
  | [] => [[]]
  | c :: cs =>
    if c = separator then [] :: splitAt separator cs
    else match splitAt separator cs with
      | [] => [[c]]
      | piece :: rest => (c :: piece) :: rest

/-- One carriage return less at the end, if there is one. -/
def dropReturn (line : List Char) : List Char :=
  (dropEnd? ['\r'] line).getD line

/-- The lines that a text is made of. Each line feed ends a line, and a carriage return right before
it belongs to the line end. Text after the last line feed is a line of its own, unless it is empty. -/
def lines (cs : List Char) : List (List Char) :=
  let pieces := splitAt '\n' cs
  let ended := pieces.dropLast.map dropReturn
  match pieces.getLast? with
  | none | some [] => ended
  | some last => ended ++ [last]

/-- The maximal runs of characters that are not blank. -/
def words (cs : List Char) : List (List Char) :=
  go [] cs
where
  /-- Reads on after the characters of `word`, which are kept in reverse. -/
  go (word : List Char) : List Char → List (List Char)
    | [] => if word.isEmpty then [] else [word.reverse]
    | c :: rest =>
      if isBlank c then
        if word.isEmpty then go [] rest else word.reverse :: go [] rest
      else go (c :: word) rest

/-- The first word of a text, if it has one. -/
def firstWord? (cs : List Char) : Option (List Char) :=
  (words cs).head?

/-- Texts with a separator between each two of them. -/
def join (separator : List Char) : List (List Char) → List Char
  | [] => []
  | [part] => part
  | part :: next :: rest => part ++ separator ++ join separator (next :: rest)

/-- Strings with a separator between each two of them. -/
def joined (separator : String) : List String → String
  | [] => ""
  | [part] => part
  | part :: next :: rest => part ++ separator ++ joined separator (next :: rest)

end EnumConverter.Text
