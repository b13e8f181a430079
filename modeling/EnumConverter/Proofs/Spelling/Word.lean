import EnumConverter.Proofs.Lexer.Shape
import EnumConverter.Proofs.Text.Line
import EnumConverter.Scope

namespace EnumConverter.Source

open Text

/-- Whether a text is read as one word. -/
def isIdentifier : List Char → Bool
  | [] => false
  | c :: cs => isIdentStart c && cs.all isIdentRest

/-- What follows neither continues a word nor makes it the start of a literal. -/
def StopsWord (rest : List Char) : Prop :=
  ∀ c ∈ rest.head?, isIdentRest c = false ∧ c ≠ '"' ∧ c ≠ '\''

theorem stopsWord_cons {c : Char} (hc : isIdentRest c = false) (hquote : c ≠ '"')
    (hprime : c ≠ '\'') (rest : List Char) : StopsWord (c :: rest) := by
  intro d hd
  obtain rfl : c = d := by simpa using hd
  exact ⟨hc, hquote, hprime⟩

theorem stopsWord_space (rest : List Char) : StopsWord (' ' :: rest) :=
  stopsWord_cons (by decide) (by decide) (by decide) rest

theorem stopsWord_colon (rest : List Char) : StopsWord (':' :: rest) :=
  stopsWord_cons (by decide) (by decide) (by decide) rest

/-- Tables whose ranges do not meet have no code point in common. -/
theorem not_covers_of_disjoint {table other : List CodeRange}
    (h : (table.all fun range => other.all fun range' =>
      Nat.blt range.2 range'.1 || Nat.blt range'.2 range.1) = true)
    {c : Char} (hc : CodeRange.covers table c = true) : CodeRange.covers other c = false := by
  rw [Bool.eq_false_iff]
  intro hother
  obtain ⟨range, hrange, hin⟩ := List.any_eq_true.1 hc
  obtain ⟨range', hrange', hin'⟩ := List.any_eq_true.1 hother
  have hmeet := List.all_eq_true.1 (List.all_eq_true.1 h range hrange) range' hrange'
  simp only [CodeRange.contains, Bool.and_eq_true, Bool.or_eq_true, decide_eq_true_eq,
    Nat.blt_eq] at hin hin' hmeet
  omega

theorem contains_digits (c : Char) : CodeRange.contains (0x30, 0x39) c = c.isDigit := by
  simp [CodeRange.contains, Char.isDigit, UInt32.le_iff_toNat_le]

theorem toNat_of_isAlpha {c : Char} (h : c.isAlpha = true) :
    0x41 ≤ c.toNat ∧ c.toNat ≤ 0x5a ∨ 0x61 ≤ c.toNat ∧ c.toNat ≤ 0x7a := by
  have h : (decide (c.val ≥ 0x41 ∧ c.val ≤ 0x5a) || (c.val ≥ 0x61 && c.val ≤ 0x7a)) = true := h
  simpa [UInt32.le_iff_toNat_le] using h

/-- The code points with which a word can start. -/
def startRanges : List CodeRange :=
  (0x41, 0x5a) :: (0x5f, 0x5f) :: (0x61, 0x7a) :: letterRanges

theorem covers_startRanges {c : Char} (h : isIdentStart c = true) :
    CodeRange.covers startRanges c = true := by
  simp only [isIdentStart, Bool.or_eq_true, decide_eq_true_eq] at h
  obtain rfl | h := h
  · rfl
  unfold isLetter at h
  split at h
  · obtain hcode | hcode := toNat_of_isAlpha h <;>
      simp [startRanges, CodeRange.covers, CodeRange.contains, hcode]
  · rw [CodeRange.covers] at h ⊢
    simp [startRanges, h]

/-- The code points with which a word can go on. -/
def restRanges : List CodeRange :=
  (0x30, 0x39) :: (startRanges ++ numeralRanges)

theorem covers_restRanges {c : Char} (h : isIdentRest c = true) :
    CodeRange.covers restRanges c = true := by
  simp only [isIdentRest, isAlphanumeric, Bool.or_eq_true, decide_eq_true_eq] at h
  have hcovers : CodeRange.covers restRanges c =
      (CodeRange.contains (0x30, 0x39) c ||
        (CodeRange.covers startRanges c || CodeRange.covers numeralRanges c)) := by
    rw [restRanges, CodeRange.covers, List.any_cons, List.any_append]
    rfl
  rw [hcovers]
  obtain h | h | h := h
  · simp [covers_startRanges (c := c) (by simp [isIdentStart, h])]
  · simp [covers_startRanges (c := c) (by simp [isIdentStart, h])]
  unfold isNumeral at h
  split at h
  · simp [contains_digits, h]
  · simp [h]

theorem isBlank_of_isIdentRest {c : Char} (h : isIdentRest c = true) : isBlank c = false :=
  not_covers_of_disjoint (by decide +kernel) (covers_restRanges h)

theorem isIdentRest_of_isIdentStart {c : Char} (h : isIdentStart c = true) :
    isIdentRest c = true := by
  simp only [isIdentStart, isIdentRest, isAlphanumeric, Bool.or_eq_true] at h ⊢
  exact h.imp id .inl

theorem isIdentRest_of_isAlphanum {c : Char} (h : c.isAlphanum = true) : isIdentRest c = true := by
  have h : (c.isAlpha || c.isDigit) = true := h
  rw [Bool.or_eq_true] at h
  have hcode : c.toNat < 0x80 := by
    obtain h | h := h
    · have hrange := toNat_of_isAlpha h
      omega
    · rw [← contains_digits, CodeRange.contains, Bool.and_eq_true] at h
      simp only [decide_eq_true_eq] at h
      omega
  simp [isIdentRest, isAlphanumeric, isLetter, isNumeral, hcode, h]

theorem isDigit_of_isIdentStart {c : Char} (h : isIdentStart c = true) : c.isDigit = false := by
  have hdigit : CodeRange.covers [(0x30, 0x39)] c = false :=
    not_covers_of_disjoint (by decide +kernel) (covers_startRanges h)
  rwa [CodeRange.covers, List.any_cons, List.any_nil, Bool.or_false, contains_digits] at hdigit

theorem takeRun_append_of_all {test : Char → Bool} {run rest : List Char}
    (hrun : ∀ c ∈ run, test c = true) (hrest : ∀ c ∈ rest.head?, test c = false) :
    takeRun test (run ++ rest) = ⟨run, rest⟩ := by
  induction run with
  | nil =>
    cases rest with
    | nil => rfl
    | cons c rest => simp [takeRun, hrest c rfl]
  | cons c run ih =>
    rw [List.cons_append, takeRun, if_pos (hrun c (by simp)), ih fun d hd => hrun d (by simp [hd])]
    rfl

theorem isIdentifier_cons {c : Char} {cs : List Char} :
    isIdentifier (c :: cs) = true ↔ isIdentStart c = true ∧ ∀ d ∈ cs, isIdentRest d = true := by
  simp [isIdentifier]

theorem isIdentifier_all {word : List Char} (h : isIdentifier word = true) :
    ∀ c ∈ word, isIdentRest c = true := by
  cases word with
  | nil => simp [isIdentifier] at h
  | cons c cs =>
    obtain ⟨hc, hcs⟩ := isIdentifier_cons.1 h
    simpa using ⟨isIdentRest_of_isIdentStart hc, hcs⟩

theorem lineFeed_notMem_of_isIdentifier {word : List Char} (h : isIdentifier word = true) :
    '\n' ∉ word :=
  fun hmem => absurd (isIdentifier_all h '\n' hmem) (by decide)

theorem lineFeed_notMem_display {path : QualifiedPath}
    (h : ∀ name ∈ path.components, isIdentifier name.toList = true) : '\n' ∉ path.display.toList :=
  notMem_joined (by decide) fun name hname => lineFeed_notMem_of_isIdentifier (h name hname)

namespace Lexeme

theorem ofWord_stop {word rest : List Char} (h : StopsWord rest) :
    ofWord ⟨word, rest⟩ = ⟨.identifier, word, rest⟩ := by
  unfold ofWord
  dsimp only
  split
  · exact absurd rfl (h '"' rfl).2.1
  · exact absurd rfl (h '\'' rfl).2.2
  · rfl

/-- A word is read up to its end, whether a literal starts there or not. -/
theorem next_ofWord (fresh : Bool) {c : Char} {cs rest : List Char}
    (hword : isIdentifier (c :: cs) = true) (hend : ∀ d ∈ rest.head?, isIdentRest d = false) :
    next fresh c (cs ++ rest) = ofWord ⟨c :: cs, rest⟩ := by
  obtain ⟨hc, hcs⟩ := isIdentifier_cons.1 hword
  have hblank := isBlank_of_isIdentRest (isIdentRest_of_isIdentStart hc)
  have hother : ∀ d, isIdentStart d = false → c ≠ d := by
    rintro d hd rfl
    rw [hc] at hd
    contradiction
  have hnumber : startsNumber c (cs ++ rest) = false := by
    simp [startsNumber, isDigit_of_isIdentStart hc, hother '.' (by decide)]
  unfold next
  simp only [hblank, hother '#' (by decide), hother '/' (by decide), hother '"' (by decide),
    hother '\'' (by decide), hnumber, hc, decide_false, Bool.false_and, Bool.false_eq_true,
    if_false, if_true]
  rw [takeRun_append_of_all hcs hend]
  rfl

/-- An identifier is read as one lexeme, if what follows stops it. -/
theorem next_word (fresh : Bool) {c : Char} {cs rest : List Char}
    (hword : isIdentifier (c :: cs) = true) (hstop : StopsWord rest) :
    next fresh c (cs ++ rest) = ⟨.identifier, c :: cs, rest⟩ := by
  rw [next_ofWord fresh hword fun d hd => (hstop d hd).1]
  exact ofWord_stop hstop

end Lexeme

end EnumConverter.Source
