namespace EnumConverter.Toml

/-- What was read from the start of a text, and the shorter text that follows it. -/
structure Parsed (α : Type) (cs : List Char) where
  value : α
  rest : List Char
  shorter : rest.length < cs.length

namespace Parsed

/-- The same result with another value. -/
def map {α β : Type} {cs : List Char} (f : α → β) (parsed : Parsed α cs) : Parsed β cs :=
  ⟨f parsed.value, parsed.rest, parsed.shorter⟩

/-- The result for a longer text. -/
def widen {α : Type} {cs longer : List Char} (parsed : Parsed α cs)
    (h : cs.length ≤ longer.length) : Parsed α longer :=
  ⟨parsed.value, parsed.rest, Nat.lt_of_lt_of_le parsed.shorter h⟩

end Parsed

/-- Whether a character may stand in a string or a comment as it is: tabs and all characters but
controls. -/
def isPlain (c : Char) : Bool :=
  c = '\t' || (0x20 ≤ c.toNat && c.toNat ≠ 0x7f)

/-- Whether a character separates the words of a line. -/
def isGap (c : Char) : Bool :=
  c = ' ' || c = '\t'

/-- What follows the gap at the start of a text. -/
def skipGap (cs : List Char) : List Char :=
  cs.dropWhile isGap

theorem length_dropWhile_le (test : Char → Bool) (cs : List Char) :
    (cs.dropWhile test).length ≤ cs.length :=
  (List.dropWhile_sublist test).length_le

theorem length_lt_cons (c : Char) (cs : List Char) : cs.length < (c :: cs).length :=
  Nat.lt_succ_self cs.length

theorem length_drop_le (count : Nat) (cs : List Char) : (cs.drop count).length ≤ cs.length :=
  (List.drop_sublist count cs).length_le

theorem length_skipGap_le (cs : List Char) : (skipGap cs).length ≤ cs.length :=
  length_dropWhile_le isGap cs

/-- The value of a hexadecimal digit. -/
def hexValue? (c : Char) : Option Nat :=
  if '0' ≤ c && c ≤ '9' then some (c.toNat - '0'.toNat)
  else if 'a' ≤ c && c ≤ 'f' then some (c.toNat - 'a'.toNat + 10)
  else if 'A' ≤ c && c ≤ 'F' then some (c.toNat - 'A'.toNat + 10)
  else none

/-- The value of the hexadecimal digits in a list. -/
def hexNumber? (digits : List Char) : Option Nat :=
  digits.foldlM (fun number c => (hexValue? c).map (number * 16 + ·)) 0

/-- The character of a code point, if it has one. -/
def scalar? (number : Nat) : Option Char :=
  if number.isValidChar then some (Char.ofNat number)
  else none

/-- The character of the escape behind a backslash. -/
def escape? : (cs : List Char) → Option (Parsed Char cs)
  | [] => none
  | c :: rest =>
    let plain (value : Char) : Option (Parsed Char (c :: rest)) :=
      some ⟨value, rest, length_lt_cons c rest⟩
    let numbered (count : Nat) : Option (Parsed Char (c :: rest)) := do
      let digits := rest.take count
      if digits.length < count then none
      else
        let value ← scalar? (← hexNumber? digits)
        some ⟨value, rest.drop count, Nat.lt_succ_of_le (length_drop_le count rest)⟩
    if c = '"' then plain '"'
    else if c = '\\' then plain '\\'
    else if c = 'b' then plain '\x08'
    else if c = 't' then plain '\t'
    else if c = 'n' then plain '\n'
    else if c = 'f' then plain '\x0c'
    else if c = 'r' then plain '\r'
    else if c = 'e' then plain '\x1b'
    else if c = 'x' then numbered 2
    else if c = 'u' then numbered 4
    else if c = 'U' then numbered 8
    else none

/-- Reads a string behind its double quote. -/
def basicString (cs : List Char) : Option (Parsed (List Char) cs) :=
  match cs with
  | [] => none
  | c :: rest =>
    if c = '"' then some ⟨[], rest, length_lt_cons c rest⟩
    else if c = '\\' then do
      let ⟨escaped, behind, h⟩ ← escape? rest
      let ⟨value, after, h'⟩ ← basicString behind
      some ⟨escaped :: value, after, by simp only [List.length_cons]; omega⟩
    else if isPlain c then do
      let ⟨value, after, h⟩ ← basicString rest
      some ⟨c :: value, after, by simp only [List.length_cons]; omega⟩
    else none
termination_by cs.length
decreasing_by all_goals grind

/-- Reads a string behind its single quote. -/
def literalString : (cs : List Char) → Option (Parsed (List Char) cs)
  | [] => none
  | c :: rest =>
    if c = '\'' then some ⟨[], rest, length_lt_cons c rest⟩
    else if isPlain c then do
      let ⟨value, after, h⟩ ← literalString rest
      some ⟨c :: value, after, by simp only [List.length_cons]; omega⟩
    else none

/-- What follows a line end at the start of a text. -/
def afterNewline? : (cs : List Char) → Option (Parsed Unit cs)
  | '\n' :: rest => some ⟨(), rest, length_lt_cons '\n' rest⟩
  | '\r' :: '\n' :: rest => some ⟨(), rest, by simp only [List.length_cons]; omega⟩
  | _ => none

/-- What follows three quotes at the start of a text, and the one or two more quotes that stand
directly behind them and still belong to the string. -/
def closingQuotes? (quote : Char) : (cs : List Char) → Option (Parsed (List Char) cs)
  | a :: b :: c :: rest =>
    if a = quote ∧ b = quote ∧ c = quote then
      match rest with
      | d :: e :: after =>
        if d = quote ∧ e = quote then
          some ⟨[quote, quote], after, by simp only [List.length_cons]; omega⟩
        else if d = quote then some ⟨[quote], e :: after, by simp⟩
        else some ⟨[], d :: e :: after, by simp⟩
      | [d] =>
        if d = quote then some ⟨[quote], [], by simp⟩ else some ⟨[], [d], by simp⟩
      | [] => some ⟨[], [], by simp⟩
    else none
  | _ => none

/-- Drops blanks and line ends. -/
def skipLines (cs : List Char) : List Char :=
  match cs with
  | [] => []
  | c :: rest =>
    if isGap c then skipLines rest
    else match afterNewline? (c :: rest) with
      | some ⟨_, after, _⟩ => skipLines after
      | none => c :: rest
termination_by cs.length
decreasing_by all_goals grind

theorem length_skipLines_le (cs : List Char) : (skipLines cs).length ≤ cs.length := by
  fun_induction skipLines cs with
  | case1 => simp
  | case2 c rest _ ih => simp only [List.length_cons]; omega
  | case3 c rest _ _ after h _ ih => omega
  | case4 c rest _ _ => simp

/-- Reads a string on several lines behind its three double quotes. A backslash at the end of a line
drops the line end and the blanks after it. -/
def basicLines (cs : List Char) : Option (Parsed (List Char) cs) :=
  match closingQuotes? '"' cs with
  | some closed => some closed
  | none =>
    match afterNewline? cs with
    | some ⟨_, rest, _⟩ => do
      let ⟨value, after, h⟩ ← basicLines rest
      some ⟨'\n' :: value, after, by omega⟩
    | none =>
      match cs with
      | [] => none
      | c :: rest =>
        if c = '\\' then
          match afterNewline? (skipGap rest) with
          | some ⟨_, next, hnext⟩ => do
            have hgap := length_skipGap_le rest
            have hskip := length_skipLines_le next
            let ⟨value, after, h⟩ ← basicLines (skipLines next)
            some ⟨value, after, by simp only [List.length_cons]; omega⟩
          | none => do
            let ⟨escaped, behind, h⟩ ← escape? rest
            let ⟨value, after, h'⟩ ← basicLines behind
            some ⟨escaped :: value, after, by simp only [List.length_cons]; omega⟩
        else if isPlain c then do
          let ⟨value, after, h⟩ ← basicLines rest
          some ⟨c :: value, after, by simp only [List.length_cons]; omega⟩
        else none
termination_by cs.length
decreasing_by all_goals grind

/-- Reads a string on several lines behind its three single quotes. -/
def literalLines (cs : List Char) : Option (Parsed (List Char) cs) :=
  match closingQuotes? '\'' cs with
  | some closed => some closed
  | none =>
    match afterNewline? cs with
    | some ⟨_, rest, _⟩ => do
      let ⟨value, after, h⟩ ← literalLines rest
      some ⟨'\n' :: value, after, by omega⟩
    | none =>
      match cs with
      | [] => none
      | c :: rest =>
        if isPlain c then do
          let ⟨value, after, h⟩ ← literalLines rest
          some ⟨c :: value, after, by simp only [List.length_cons]; omega⟩
        else none
termination_by cs.length
decreasing_by all_goals grind

/-- What follows a line end at the start of a text, or the text itself. The line end right behind three
opening quotes does not belong to the string. -/
def afterOpening (cs : List Char) : List Char :=
  match afterNewline? cs with
  | some parsed => parsed.rest
  | none => cs

theorem length_afterOpening_le (cs : List Char) : (afterOpening cs).length ≤ cs.length := by
  unfold afterOpening
  split
  · next parsed _ => exact Nat.le_of_lt parsed.shorter
  · exact Nat.le_refl _

/-- Reads a string on one line. -/
def lineString : (cs : List Char) → Option (Parsed String cs)
  | '"' :: rest => (basicString rest).map fun p => (p.map String.ofList).widen (by simp)
  | '\'' :: rest => (literalString rest).map fun p => (p.map String.ofList).widen (by simp)
  | _ => none

/-- Reads a string in any of the four ways. -/
def anyString : (cs : List Char) → Option (Parsed String cs)
  | '"' :: '"' :: '"' :: rest =>
    (basicLines (afterOpening rest)).map fun p => (p.map String.ofList).widen
      (by have := length_afterOpening_le rest; simp only [List.length_cons]; omega)
  | '\'' :: '\'' :: '\'' :: rest =>
    (literalLines (afterOpening rest)).map fun p => (p.map String.ofList).widen
      (by have := length_afterOpening_le rest; simp only [List.length_cons]; omega)
  | cs => lineString cs

end EnumConverter.Toml
