namespace EnumConverter.Emit

/-- How generated code is indented. -/
inductive Indent where
  | spaces2
  | spaces4
  | tabs
deriving DecidableEq, Repr, Inhabited

namespace Indent

/-- Every way to indent. -/
def all : List Indent := [.spaces2, .spaces4, .tabs]

/-- The word for a way to indent. -/
def word : Indent → String
  | .spaces2 => "spaces2"
  | .spaces4 => "spaces4"
  | .tabs => "tabs"

/-- The way to indent that a word stands for. -/
def ofWord? (word : String) : Option Indent :=
  all.find? (·.word = word)

/-- The blanks of one level. -/
def unit : Indent → String
  | .spaces2 => "  "
  | .spaces4 => "    "
  | .tabs => "\t"

/-- The blanks of a number of levels. -/
def level (indent : Indent) : Nat → String
  | 0 => ""
  | depth + 1 => indent.unit ++ indent.level depth

end Indent

/-- A line of code without its indentation. -/
structure CodeLine where
  depth : Nat
  text : String
deriving DecidableEq, Repr

/-- A line of code as it is written. -/
def CodeLine.render (indent : Indent) (line : CodeLine) : String :=
  indent.level line.depth ++ line.text ++ "\n"

/-- Lines of code as they are written. -/
def renderLines (indent : Indent) : List CodeLine → String
  | [] => ""
  | line :: rest => line.render indent ++ renderLines indent rest

/-- A conditional at a depth. -/
def conditional (depth : Nat) (condition : String) (statements : List String) : List CodeLine :=
  ⟨depth, "if (" ++ condition ++ ") \x7b"⟩ ::
    statements.map (⟨depth + 1, ·⟩) ++ [⟨depth, "\x7d"⟩]

/-- A function with its signature and the lines of its body. -/
def function (signature : String) (body : List CodeLine) : List CodeLine :=
  ⟨0, signature ++ " \x7b"⟩ :: body ++ [⟨0, "\x7d"⟩]

/-- The digit of a number below sixteen. -/
def hexDigit (n : Nat) : Char :=
  if n < 10 then Char.ofNat ('0'.toNat + n) else Char.ofNat ('a'.toNat + (n - 10))

/-- A character as it stands inside a literal. -/
def escapeChar (c : Char) : List Char :=
  if c = '"' then ['\\', '"']
  else if c = '\\' then ['\\', '\\']
  else if c = '\x08' then ['\\', 'b']
  else if c = '\x0c' then ['\\', 'f']
  else if c = '\n' then ['\\', 'n']
  else if c = '\r' then ['\\', 'r']
  else if c = '\t' then ['\\', 't']
  else if c.toNat < 0x20 then
    ['\\', 'u', '0', '0', hexDigit (c.toNat / 16), hexDigit (c.toNat % 16)]
  else [c]

/-- The literal that stands for a list of characters. -/
def quoteChars (value : List Char) : List Char :=
  '"' :: value.flatMap escapeChar ++ ['"']

/-- The literal that stands for a text. -/
def quote (value : String) : String :=
  String.ofList (quoteChars value.toList)

end EnumConverter.Emit
