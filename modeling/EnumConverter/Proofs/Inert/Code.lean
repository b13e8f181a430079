import EnumConverter.Proofs.Inert.Nest

namespace EnumConverter.Scan

open Source Text

/-- Reads code that has neither comments nor literals nor words that open anything, with `depth`
braces open: the number of braces that are open behind it. The code has to end where a token ends,
whatever follows. The first argument bounds the number of tokens and blanks. -/
def settle : Nat → Nat → List Char → Option Nat
  | _, depth, [] => some depth
  | 0, _, _ :: _ => none
  | fuel + 1, depth, c :: cs =>
    if isBlank c then settle fuel depth cs
    else if c = '\x7b' then settle fuel (depth + 1) cs
    else if c = '\x7d' then
      match depth with
      | 0 => none
      | depth + 1 => settle fuel depth cs
    else if c ∈ Lexeme.marks then settle fuel depth cs
    else
      match c, cs with
      | ':', ':' :: cs => settle fuel depth cs
      | '.', d :: cs => if d.isDigit then none else settle fuel depth (d :: cs)
      | c, cs =>
        let word := takeRun isIdentRest (c :: cs)
        if isIdentifier word.taken && String.ofList word.taken ∉ openingWords &&
            word.rest.head?.any (fun d => d ≠ '"' && d ≠ '\'') then
          settle fuel depth word.rest
        else none

/-- Whether a fixed piece of code takes the scanner from `before` open braces to `after`. -/
def settles (before after : Nat) (code : String) : Bool :=
  settle code.toList.length before code.toList = some after

theorem nests_word (depth : Nat) {word rest : List Char} (hword : isIdentifier word = true)
    (hidle : String.ofList word ∉ openingWords) {after : Nat} (hne : rest ≠ [])
    (hstop : StopsWord rest) (h : Nests depth after rest) : Nests depth after (word ++ rest) := by
  intro here inner outer doc hinner
  obtain ⟨there, inner', doc', hinner', hpass⟩ := h (here.pastCode word) inner outer [] hinner
  refine ⟨there, inner', doc', hinner', ?_⟩
  intro final more
  have hstop' : StopsWord (rest ++ more) := by
    obtain ⟨c, cs, rfl⟩ := List.exists_cons_of_ne_nil hne
    exact hstop
  rw [List.append_assoc, Spot.scan, here.tokens_word hword hstop',
    scanFrom_idle (by simpa [isIdle] using hidle)]
  exact hpass final more

/-- A point before a character that is no digit. -/
theorem nests_point (depth : Nat) {d : Char} {cs : List Char} (hd : d.isDigit = false) {after : Nat}
    (h : Nests depth after (d :: cs)) : Nests depth after ('.' :: d :: cs) := by
  intro here inner outer doc hinner
  obtain ⟨there, inner', doc', hinner', hpass⟩ := h (here.pastCode ['.']) inner outer [] hinner
  refine ⟨there, inner', doc', hinner', ?_⟩
  intro final more
  change scanFrom final _ (here.tokens ('.' :: (d :: cs ++ more))) = _
  rw [here.tokens_point (by simpa using hd), scanFrom_idle rfl]
  exact hpass final more

theorem nests_of_settle {fuel before after : Nat} {code : List Char}
    (h : settle fuel before code = some after) : Nests before after code := by
  fun_induction settle fuel before code with
  | case1 fuel depth =>
    obtain rfl : depth = after := by simpa using h
    exact .nil depth
  | case3 fuel depth c cs hblank ih => exact (nests_blank depth hblank).append (ih h)
  | case4 fuel depth cs _ ih => exact (nests_openBrace depth).append (ih h)
  | case6 fuel cs depth _ _ ih => exact (nests_closeBrace depth).append (ih h)
  | case7 fuel depth c cs _ hopen hclose hmark ih =>
    exact (nests_mark depth hmark (by simp [isIdle, hopen, hclose])).append (ih h)
  | case8 fuel depth cs _ _ _ _ ih => exact (nests_pathSeparator depth).append (ih h)
  | case10 fuel depth d cs hdigit _ _ _ _ ih => exact nests_point depth (by simpa using hdigit) (ih h)
  | case11 fuel depth c cs _ _ word hword _ _ _ _ ih =>
    simp only [Bool.and_eq_true, decide_eq_true_eq] at hword
    obtain ⟨⟨hidentifier, hidle⟩, hquotes⟩ := hword
    have hwhole : word.taken ++ word.rest = c :: cs := whole_takeRun isIdentRest (c :: cs)
    have hne : word.rest ≠ [] := by
      intro hnil
      simp [hnil] at hquotes
    have hstop : StopsWord word.rest := by
      intro d hd
      have hend := takeRun_rest_head isIdentRest (c :: cs) d hd
      rw [hd] at hquotes
      exact ⟨hend, by simpa using hquotes⟩
    rw [← hwhole]
    exact nests_word depth hidentifier hidle hne hstop (ih h)
  | _ => simp at h

theorem nests_fixed {before after : Nat} {code : String} (h : settles before after code = true) :
    Nests before after code.toList :=
  nests_of_settle (by simpa [settles] using h)

end EnumConverter.Scan
