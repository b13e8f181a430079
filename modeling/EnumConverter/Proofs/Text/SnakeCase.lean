import EnumConverter.Text.Case
import EnumConverter.Proofs.Text.Line

namespace EnumConverter.Text

/-- Whether a character comes before all letters. -/
def BeforeLetters (c : Char) : Prop :=
  0 < c.toNat ∧ c.toNat < 0x41

instance (c : Char) : Decidable (BeforeLetters c) :=
  inferInstanceAs (Decidable (_ ∧ _))

/-- A rule for spelling names puts a character into no name that does not have it. -/
def KeepsOut (c : Char) (spell : String → String) : Prop :=
  ∀ name : String, c ∉ name.toList → c ∉ (spell name).toList

/-- What is relied on of a rule that puts names into snake case. -/
structure IsSnakeRule (snake : String → String) : Prop where
  /-- It brings in no character that comes before all letters. -/
  keepsOut : ∀ c, BeforeLetters c → KeepsOut c snake
  /-- No name becomes empty. -/
  ne_empty : ∀ name, name ≠ "" → snake name ≠ ""

/-- No character that has a lower-case form leads back to where no letters are. -/
theorem loweringRows_reach : ∀ row ∈ loweringRows, 0x41 ≤ (row.1.first : Int) + row.2 := by
  decide +kernel

section Characters

variable {d : Char} (hd : BeforeLetters d)
include hd

theorem ne_of_beforeLetters {c : Char} (hc : 0x41 ≤ c.toNat) : d ≠ c := by
  rintro rfl
  exact absurd hc (Nat.not_le.2 hd.2)

theorem ne_toLower {c : Char} (h : d ≠ c) : d ≠ c.toLower := by
  unfold Char.toLower
  split
  · rename_i hupper
    rw [UInt32.le_iff_toNat_le] at hupper
    intro heq
    have hcode := congrArg UInt32.toNat (congrArg Char.val heq)
    have hlow := hd.2
    simp [UInt32.le_iff_toNat_le] at hupper hcode
    omega
  · exact h

theorem ne_ofNat {code : Nat} (h : 0x41 ≤ code) : d ≠ Char.ofNat code := by
  intro heq
  by_cases hvalid : code.isValidChar
  · have hchar : Char.ofNat code = Char.ofNatAux code hvalid := dif_pos hvalid
    have hcode : d.toNat = code := congrArg Char.toNat (heq.trans hchar)
    exact absurd h (Nat.not_le.2 (hcode ▸ hd.2))
  · have hchar : Char.ofNat code = '\x00' := dif_neg hvalid
    have hzero : d.toNat = 0 := congrArg Char.toNat (heq.trans hchar)
    exact absurd hd.1 (by omega)

theorem notMem_lowerChar {c : Char} (h : d ≠ c) : d ∉ lowerChar c := by
  fun_cases lowerChar c with
  | case1 => simpa using ne_toLower hd h
  | case2 => simpa using ⟨ne_of_beforeLetters hd (by decide), ne_of_beforeLetters hd (by decide)⟩
  | case3 _ _ row distance hrow =>
    have hreach : 0x41 ≤ (row.first : Int) + distance :=
      loweringRows_reach _ (List.mem_of_find?_eq_some hrow)
    have hcontains := List.find?_some hrow
    simp [CaseRow.contains] at hcontains
    simpa using ne_ofNat hd (by omega)
  | case4 => simpa using h

theorem notMem_lower {cs : List Char} (h : d ∉ cs) : d ∉ lower cs := by
  unfold lower
  generalize [] = before
  induction cs generalizing before with
  | nil => simp [lower.go]
  | cons c cs ih =>
    rw [List.mem_cons, not_or] at h
    rw [lower.go, List.mem_append, not_or]
    refine ⟨?_, ih h.2 _⟩
    -- Both forms of a small sigma are other characters.
    split
    · split <;> simpa using ne_of_beforeLetters hd (by decide)
    · exact notMem_lowerChar hd h.1

end Characters

/-- The words of a name have no other characters than the name. -/
theorem nameWords_subset (cs : List Char) : ∀ word ∈ nameWords cs, ∀ c ∈ word, c ∈ cs := by
  fun_induction nameWords cs with
  | case1 => simp
  | case2 c rest hseparates ih => grind
  | case3 c rest hseparates hnone ih => grind
  | case4 c rest hseparates word others hwords hends ih => grind
  | case5 c rest hseparates word others hwords hends ih => grind

theorem keepsOut_snakeCase {d : Char} (hd : BeforeLetters d) : KeepsOut d snakeCase := by
  intro name h
  refine notMem_joined ?_ fun text htext => ?_
  · simpa using ne_of_beforeLetters hd (by decide)
  obtain ⟨word, hword, rfl⟩ := List.mem_map.1 htext
  rw [String.toList_ofList]
  exact notMem_lower hd fun hmem => h (nameWords_subset _ word hword _ hmem)

theorem lowerChar_ne_nil (c : Char) : lowerChar c ≠ [] := by
  fun_cases lowerChar c <;> simp

theorem eq_nil_of_lower_eq_nil {cs : List Char} (h : lower cs = []) : cs = [] := by
  cases cs with
  | nil => rfl
  | cons c cs =>
    rw [lower, lower.go, List.append_eq_nil_iff] at h
    obtain ⟨hfirst, -⟩ := h
    split at hfirst
    · split at hfirst <;> cases hfirst
    · exact absurd hfirst (lowerChar_ne_nil c)

theorem nameWords_ne_nil (cs : List Char) : nameWords cs ≠ [] := by
  fun_cases nameWords cs <;> simp

/-- Only an empty name has no more than one empty word. -/
theorem eq_nil_of_nameWords_eq {cs : List Char} (h : nameWords cs = [[]]) : cs = [] := by
  cases cs with
  | nil => rfl
  | cons c rest =>
    rw [nameWords] at h
    split at h
    · exact absurd (List.cons.inj h).2 (nameWords_ne_nil rest)
    split at h
    · simp at h
    · split at h <;> simp at h

theorem snakeCase_ne_empty {name : String} (h : name ≠ "") : snakeCase name ≠ "" := by
  intro hempty
  refine mt String.toList_eq_nil_iff.1 h (eq_nil_of_nameWords_eq ?_)
  obtain ⟨word, rest, hwords⟩ := List.exists_cons_of_ne_nil (nameWords_ne_nil name.toList)
  rw [snakeCase, hwords, List.map_cons] at hempty
  rw [hwords]
  cases rest with
  | nil =>
    rw [List.map_nil, joined] at hempty
    rw [eq_nil_of_lower_eq_nil (String.ofList_eq_empty_iff.1 hempty)]
  | cons next rest =>
    -- There is an underscore between two words.
    have hlist := congrArg String.toList hempty
    simp [joined] at hlist

theorem isSnakeRule_snakeCase : IsSnakeRule snakeCase where
  keepsOut _ := keepsOut_snakeCase
  ne_empty _ := snakeCase_ne_empty

end EnumConverter.Text
