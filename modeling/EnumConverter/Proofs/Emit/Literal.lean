import EnumConverter.Emit.Code
import EnumConverter.Proofs.Inert.Nest
import EnumConverter.Proofs.Text.Line

namespace EnumConverter.Emit

open Text

/-- The number that a hexadecimal digit stands for. -/
def hexValue? (c : Char) : Option Nat :=
  if '0' ≤ c ∧ c ≤ '9' then some (c.toNat - '0'.toNat)
  else if 'a' ≤ c ∧ c ≤ 'f' then some (c.toNat - 'a'.toNat + 10)
  else if 'A' ≤ c ∧ c ≤ 'F' then some (c.toNat - 'A'.toNat + 10)
  else none

/-- The character whose code is written with the given hexadecimal digits. -/
def charOfHex? (digits : List Char) : Option Char :=
  (digits.foldlM (fun code digit => (hexValue? digit).map (16 * code + ·)) 0).map Char.ofNat

/-- The character that an escape of one character stands for. -/
def shortEscape? : Char → Option Char
  | '"' => some '"'
  | '\\' => some '\\'
  | 'b' => some '\x08'
  | 'f' => some '\x0c'
  | 'n' => some '\n'
  | 'r' => some '\r'
  | 't' => some '\t'
  | _ => none

/-- The text that the characters between two quotes stand for. A quote ends the literal and a line feed
cannot be inside one, so that both are refused unless they are escaped. -/
def unescape : List Char → Option (List Char)
  | [] => some []
  | '"' :: _ | '\n' :: _ | ['\\'] => none
  | '\\' :: 'u' :: a :: b :: c :: d :: rest =>
    (charOfHex? [a, b, c, d]).bind fun char => (unescape rest).map (char :: ·)
  | '\\' :: c :: rest => (shortEscape? c).bind fun char => (unescape rest).map (char :: ·)
  | c :: rest => (unescape rest).map (c :: ·)

/-- The text that a literal stands for. -/
def literal? (text : String) : Option String :=
  ((between? "\"" "\"" text).bind fun inner => unescape inner.toList).map String.ofList

theorem charOfHex?_control :
    ∀ n < 32, charOfHex? ['0', '0', hexDigit (n / 16), hexDigit (n % 16)] = some (Char.ofNat n) := by
  decide

theorem unescape_cons {c : Char} (hquote : c ≠ '"') (hbackslash : c ≠ '\\') (hfeed : c ≠ '\n')
    (cs : List Char) : unescape (c :: cs) = (unescape cs).map (c :: ·) := by
  simp [unescape, hbackslash]

theorem unescape_escapeChar (c : Char) (cs : List Char) :
    unescape (escapeChar c ++ cs) = (unescape cs).map (c :: ·) := by
  fun_cases escapeChar c with
  | case8 _ _ _ _ _ _ _ hcontrol =>
    have hcode := charOfHex?_control c.toNat hcontrol
    rw [Char.ofNat_toNat] at hcode
    simp [unescape, hcode]
  | case9 hquote hbackslash _ _ hfeed => exact unescape_cons hquote hbackslash hfeed cs
  | _ =>
    subst_vars
    simp [unescape, shortEscape?]

theorem unescape_flatMap (value : List Char) : unescape (value.flatMap escapeChar) = some value := by
  induction value with
  | nil => rfl
  | cons c value ih => rw [List.flatMap_cons, unescape_escapeChar, ih, Option.map_some]

/-- Every text is read back from its literal. -/
theorem literal?_quote (value : String) : literal? (quote value) = some value := by
  have htext : quote value = "\"" ++ String.ofList (value.toList.flatMap escapeChar) ++ "\"" := by
    simp [quote, quoteChars, String.ext_iff]
  rw [literal?, htext, between?_append, Option.bind_some, String.toList_ofList, unescape_flatMap,
    Option.map_some, String.ofList_toList]

theorem toNat_hexDigit {n : Nat} (h : n < 16) : 0x20 ≤ (hexDigit n).toNat := by
  have hall : ∀ n < 16, 0x20 ≤ (hexDigit n).toNat := by decide
  exact hall n h

/-- Control characters are written with other characters. -/
theorem toNat_of_mem_escapeChar (c : Char) : ∀ d ∈ escapeChar c, 0x20 ≤ d.toNat := by
  fun_cases escapeChar c with
  | case8 _ _ _ _ _ _ _ hcontrol =>
    have hhigh := toNat_hexDigit (by omega : c.toNat / 16 < 16)
    have hlow := toNat_hexDigit (by omega : c.toNat % 16 < 16)
    simp [hhigh, hlow]
  | case9 _ _ _ _ _ _ _ hplain => simpa using hplain
  | _ => simp

theorem toNat_of_mem_quote (value : String) : ∀ d ∈ (quote value).toList, 0x20 ≤ d.toNat := by
  intro d hd
  simp only [quote, quoteChars, String.toList_ofList, List.cons_append, List.mem_cons,
    List.mem_append, List.mem_flatMap, List.not_mem_nil, or_false] at hd
  obtain rfl | ⟨c, -, hd⟩ | rfl := hd
  · decide
  · exact toNat_of_mem_escapeChar c d hd
  · decide

/-- A literal stays on its line, whatever value it stands for. -/
theorem lineFeed_notMem_quote (value : String) : '\n' ∉ (quote value).toList :=
  fun hfeed => absurd (toNat_of_mem_quote value '\n' hfeed) (by decide)

end EnumConverter.Emit
