import EnumConverter.Text.Line
import EnumConverter.Toml.Value

namespace EnumConverter.Toml

open Text

/-- Whether a character can be part of a number, a boolean or a time. -/
def isWordChar (c : Char) : Bool :=
  c.isAlphanum || c = '+' || c = '-' || c = '_' || c = '.' || c = ':'

/-- The digits of a number without the underscores between them. -/
def digits? (isDigit : Char → Bool) (cs : List Char) : Option (List Char) :=
  let groups := splitAt '_' cs
  if groups.all fun group => !group.isEmpty && group.all isDigit then some groups.flatten else none

/-- The value of digits in a base up to sixteen. -/
def valueOfDigits (base : Nat) (digits : List Char) : Nat :=
  digits.foldl (fun number c =>
    let digit := if c.isDigit then c.toNat - '0'.toNat else c.toLower.toNat - 'a'.toNat + 10
    number * base + digit) 0

/-- The digits of a decimal number. Only zero itself starts with a zero. -/
def decimalDigits? (cs : List Char) : Option (List Char) :=
  match digits? Char.isDigit cs with
  | some ('0' :: _ :: _) => none
  | result => result

/-- A text without its sign, and whether the sign is a minus. -/
def splitSign : List Char → Bool × List Char
  | '-' :: rest => (true, rest)
  | '+' :: rest => (false, rest)
  | cs => (false, cs)

/-- The integer that a word stands for. -/
def integer? (word : List Char) : Option Int :=
  match word with
  | '0' :: 'x' :: rest =>
    (digits? (fun c => c.isDigit || ('a' ≤ c.toLower && c.toLower ≤ 'f')) rest).map
      fun digits => (valueOfDigits 16 digits : Int)
  | '0' :: 'o' :: rest =>
    (digits? (fun c => '0' ≤ c && c ≤ '7') rest).map fun digits => (valueOfDigits 8 digits : Int)
  | '0' :: 'b' :: rest =>
    (digits? (fun c => c = '0' || c = '1') rest).map fun digits => (valueOfDigits 2 digits : Int)
  | _ =>
    let (negative, rest) := splitSign word
    (decimalDigits? rest).map fun digits =>
      let number : Int := valueOfDigits 10 digits
      if negative then -number else number

/-- The exponent that a text stands for. No text stands for none. -/
def exponent? : List Char → Option Int
  | [] => some 0
  | c :: rest =>
    if c = 'e' || c = 'E' then
      let (negative, rest) := splitSign rest
      (digits? Char.isDigit rest).map fun digits =>
        let number : Int := valueOfDigits 10 digits
        if negative then -number else number
    else none

/-- The number with a fraction or an exponent that a word stands for. -/
def fractional? (word : List Char) : Option Fractional :=
  let (negative, unsigned) := splitSign word
  if unsigned = ['i', 'n', 'f'] then some (.infinity negative)
  else if unsigned = ['n', 'a', 'n'] then some .notANumber
  else do
    let isPart (c : Char) : Bool := c.isDigit || c = '_'
    let (whole, rest) := unsigned.span isPart
    let digits ← decimalDigits? whole
    match rest with
    | [] => none
    | '.' :: rest =>
      let (fraction, rest) := rest.span isPart
      let places ← digits? Char.isDigit fraction
      let exponent ← exponent? rest
      some (.decimal negative (valueOfDigits 10 (digits ++ places)) (exponent - places.length))
    | rest => some (.decimal negative (valueOfDigits 10 digits) (← exponent? rest))

/-- The number of `count` digits at the start of a text, and what follows. -/
def fixedNumber? (count : Nat) (cs : List Char) : Option (Nat × List Char) :=
  let digits := cs.take count
  if digits.length = count && digits.all Char.isDigit then
    some (valueOfDigits 10 digits, cs.drop count)
  else none

/-- What follows a character at the start of a text. -/
def after? (c : Char) (cs : List Char) : Option (List Char) :=
  dropStart? [c] cs

/-- The number of days of a month. -/
def daysOfMonth (year month : Nat) : Nat :=
  if month = 2 then
    if year % 4 = 0 ∧ (year % 100 ≠ 0 ∨ year % 400 = 0) then 29 else 28
  else if month = 4 ∨ month = 6 ∨ month = 9 ∨ month = 11 then 30
  else 31

/-- What follows the date at the start of a text. -/
def afterDate? (cs : List Char) : Option (List Char) := do
  let (year, cs) ← fixedNumber? 4 cs
  let (month, cs) ← fixedNumber? 2 (← after? '-' cs)
  let (day, cs) ← fixedNumber? 2 (← after? '-' cs)
  if 1 ≤ month ∧ month ≤ 12 ∧ 1 ≤ day ∧ day ≤ daysOfMonth year month then some cs else none

/-- What follows the seconds of a time of day, with a colon before them. They may be missing, and they
may have a fraction. -/
def afterSeconds? : List Char → Option (List Char)
  | ':' :: cs => do
    let (second, cs) ← fixedNumber? 2 cs
    if second ≤ 60 then
      match cs with
      | '.' :: rest =>
        let (fraction, rest) := rest.span Char.isDigit
        if fraction.isEmpty then none else some rest
      | cs => some cs
    else none
  | cs => some cs

/-- What follows the time of day at the start of a text. -/
def afterClock? (cs : List Char) : Option (List Char) := do
  let (hour, cs) ← fixedNumber? 2 cs
  let (minute, cs) ← fixedNumber? 2 (← after? ':' cs)
  if hour < 24 ∧ minute < 60 then afterSeconds? cs else none

/-- Whether a text is empty or the distance of a time zone. -/
def isOffset : List Char → Bool
  | [] => true
  | [c] => c = 'Z' || c = 'z'
  | c :: rest =>
    (c = '+' || c = '-') &&
      match (do
        let (hour, cs) ← fixedNumber? 2 rest
        let (minute, cs) ← fixedNumber? 2 (← after? ':' cs)
        if hour < 24 ∧ minute < 60 then some cs else none) with
      | some [] => true
      | _ => false

/-- Whether a word is a date, a time of day or both. -/
def isTime (word : List Char) : Bool :=
  match afterDate? word with
  | some [] => true
  | some (c :: rest) =>
    (c = 'T' || c = 't' || c = ' ') && ((afterClock? rest).map isOffset).getD false
  | none =>
    match afterClock? word with
    | some [] => true
    | _ => false

/-- The value that a word stands for. -/
def scalarOfWord? (word : List Char) : Option Value :=
  if word = "true".toList then some (.boolean true)
  else if word = "false".toList then some (.boolean false)
  else match integer? word with
    | some number => some (.integer number)
    | none =>
      match fractional? word with
      | some number => some (.float number)
      | none => if isTime word then some (.time (String.ofList word)) else none

/-- Whether a word is a date and the text behind a blank starts like a time of day. -/
def isDateBefore (word next : List Char) : Bool :=
  afterDate? word = some [] && (fixedNumber? 2 next).isSome

end EnumConverter.Toml
