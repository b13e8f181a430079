import EnumConverter.Declaration
import EnumConverter.Proofs.Path.Order

namespace EnumConverter.Declaration

variable {declaration : Declaration} {kind : Conversion}

theorem namesOf_eq (value : String) :
    declaration.namesOf kind value =
      (declaration.enumerators.filter (·.value kind = value)).map (·.name) := by
  simp [namesOf, values, List.filter_map, Function.comp_def]

theorem mem_namesOf (kind : Conversion) {enumerator : Enumerator}
    (h : enumerator ∈ declaration.enumerators) :
    enumerator.name ∈ declaration.namesOf kind (enumerator.value kind) := by
  rw [namesOf_eq]
  exact List.mem_map.2 ⟨enumerator, by simpa using h, rfl⟩

theorem head?_namesOf (value : String) :
    (declaration.namesOf kind value).head? =
      (declaration.enumerators.find? (·.value kind = value)).map (·.name) := by
  rw [namesOf_eq, List.head?_map, List.head?_filter]

theorem find?_values (value : String) :
    ((declaration.values kind).find? (·.2 = value)).map (·.1) =
      (declaration.enumerators.find? (·.value kind = value)).map (·.name) := by
  simp [values, List.find?_map, Function.comp_def]

theorem nodup_namesOf (kind : Conversion) (hdistinct : (declaration.enumerators.map (·.name)).Nodup)
    (value : String) :
    (declaration.namesOf kind value).Nodup := by
  rw [namesOf_eq]
  exact (List.filter_sublist.map _).nodup hdistinct

theorem mem_duplicateValues {value : String} {names : List String} :
    (value, names) ∈ declaration.duplicateValues kind ↔
      names = declaration.namesOf kind value ∧ 1 < names.length := by
  have hvalue (h : 1 < (declaration.namesOf kind value).length) :
      value ∈ (declaration.values kind).map (·.2) := by
    obtain ⟨name, hname⟩ := List.exists_mem_of_length_pos (Nat.lt_trans Nat.zero_lt_one h)
    obtain ⟨entry, hentry, -⟩ := List.mem_map.1 hname
    obtain ⟨hmem, heq⟩ := List.mem_filter.1 hentry
    exact List.mem_map.2 ⟨entry, hmem, by simpa using heq⟩
  simp only [duplicateValues, List.mem_map, List.mem_mergeSort, List.mem_filter, List.mem_eraseDups,
    decide_eq_true_eq, Prod.mk.injEq]
  constructor
  · rintro ⟨other, ⟨-, hlength⟩, rfl, rfl⟩
    exact ⟨rfl, hlength⟩
  · rintro ⟨rfl, hlength⟩
    exact ⟨value, ⟨List.mem_map.1 (hvalue hlength), hlength⟩, rfl, rfl⟩

/-- The shared values are in increasing order, so that each is reported once. -/
theorem pairwise_duplicateValues :
    ((declaration.duplicateValues kind).map (·.1)).Pairwise (· < ·) := by
  unfold duplicateValues
  dsimp only
  rw [List.map_map, Function.comp_def, List.map_id']
  generalize hshared : List.filter _ _ = shared
  have hnodup : shared.Nodup := hshared ▸ (nodup_eraseDups _).filter _
  have hsorted : (shared.mergeSort fun a b => !decide (b < a)).Pairwise
      fun a b => (!decide (b < a)) = true := by
    apply List.pairwise_mergeSort
    · intro a b c hab hbc
      simp only [Bool.not_eq_true', decide_eq_false_iff_not, String.not_lt] at hab hbc ⊢
      exact String.le_trans hab hbc
    · intro a b
      simp only [Bool.or_eq_true, Bool.not_eq_true', decide_eq_false_iff_not, String.not_lt]
      exact String.le_total a b
  have hdistinct := (List.mergeSort_perm shared fun a b => !decide (b < a)).nodup_iff.2 hnodup
  refine (hsorted.and hdistinct).imp fun {a b} hab => ?_
  obtain ⟨hle, hne⟩ := hab
  simp only [Bool.not_eq_true', decide_eq_false_iff_not, String.not_lt] at hle
  exact Decidable.byContradiction fun hlt => hne (String.le_antisymm hle (String.not_lt.1 hlt))

theorem duplicateValues_eq_nil_iff :
    declaration.duplicateValues kind = [] ↔
      ∀ value, (declaration.namesOf kind value).length ≤ 1 := by
  rw [List.eq_nil_iff_forall_not_mem]
  constructor
  · intro h value
    exact Nat.le_of_not_lt fun hlength => h _ (mem_duplicateValues.2 ⟨rfl, hlength⟩)
  · rintro h ⟨value, names⟩ hmem
    obtain ⟨rfl, hlength⟩ := mem_duplicateValues.1 hmem
    exact absurd hlength (Nat.not_lt_of_le (h value))

/-- Every enumerator is the first one with its value exactly if no value is shared. -/
theorem forall_head?_namesOf_iff (hdistinct : (declaration.enumerators.map (·.name)).Nodup) :
    (∀ enumerator ∈ declaration.enumerators,
        (declaration.namesOf kind (enumerator.value kind)).head? = some enumerator.name) ↔
      declaration.duplicateValues kind = [] := by
  rw [duplicateValues_eq_nil_iff]
  constructor
  · intro h value
    -- A second enumerator with the value would have the name of the first one.
    match hnames : declaration.namesOf kind value with
    | [] | [_] => simp
    | first :: second :: rest =>
      have hsecond : second ∈ declaration.namesOf kind value := by simp [hnames]
      rw [namesOf_eq] at hsecond
      obtain ⟨enumerator, hmem, rfl⟩ := List.mem_map.1 hsecond
      obtain ⟨henumerator, hvalue⟩ := List.mem_filter.1 hmem
      obtain rfl : enumerator.value kind = value := by simpa using hvalue
      have hhead : first = enumerator.name := by simpa [hnames] using h enumerator henumerator
      have hnodup := nodup_namesOf kind hdistinct (enumerator.value kind)
      rw [hnames, List.nodup_cons] at hnodup
      exact absurd (by simp [hhead]) hnodup.1
  · intro h enumerator henumerator
    have hmem := mem_namesOf kind henumerator
    have hlength := h (enumerator.value kind)
    match hnames : declaration.namesOf kind (enumerator.value kind) with
    | [] => simp [hnames] at hmem
    | [name] =>
      obtain rfl : enumerator.name = name := by simpa [hnames] using hmem
      rfl
    | _ :: _ :: _ => simp [hnames] at hlength

end EnumConverter.Declaration
