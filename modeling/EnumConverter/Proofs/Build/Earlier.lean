import Mathlib.Data.List.Induction

namespace EnumConverter

variable {α β : Type}

/-- The results for all items of a list, each from the items before it and the item itself. -/
def mapEarlier (result : List α → α → β) (items : List α) : List β :=
  items.mapIdx fun index item => result (items.take index) item

/-- The items of a list that pass a test against the items before them. -/
def filterEarlier (test : List α → α → Bool) (items : List α) : List α :=
  (items.zipIdx.filter fun (item, index) => test (items.take index) item).map (·.1)

theorem mapEarlier_concat (result : List α → α → β) (items : List α) (item : α) :
    mapEarlier result (items ++ [item]) = mapEarlier result items ++ [result items item] := by
  unfold mapEarlier
  rw [List.mapIdx_append]
  have hfront : items.mapIdx (fun index other => result ((items ++ [item]).take index) other) =
      items.mapIdx fun index other => result (items.take index) other := by
    apply List.ext_getElem (by simp)
    intro index hleft hright
    have hindex : index ≤ items.length := by
      rw [List.length_mapIdx] at hleft
      omega
    rw [List.getElem_mapIdx, List.getElem_mapIdx, List.take_append_of_le_length hindex]
  rw [hfront]
  simp

theorem filterEarlier_concat (test : List α → α → Bool) (items : List α) (item : α) :
    filterEarlier test (items ++ [item]) =
      filterEarlier test items ++ if test items item then [item] else [] := by
  unfold filterEarlier
  rw [List.zipIdx_append, List.filter_append, List.map_append]
  have hfront : (items.zipIdx.filter fun (other, index) =>
      test ((items ++ [item]).take index) other) =
      items.zipIdx.filter fun (other, index) => test (items.take index) other := by
    apply List.filter_congr
    rintro ⟨other, index⟩ hother
    have hindex : index < items.length := by
      have hbound := (List.mem_zipIdx hother).2.1
      omega
    dsimp only
    rw [List.take_append_of_le_length (by omega)]
  rw [hfront]
  by_cases htest : test items item = true
  · simp [htest]
  · simp [htest]

theorem filterEarlier_sublist (test : List α → α → Bool) (items : List α) :
    (filterEarlier test items).Sublist items := by
  have hall : items.zipIdx.map (·.1) = items := List.zipIdx_map_fst ..
  have hkept : (filterEarlier test items).Sublist (items.zipIdx.map (·.1)) :=
    List.filter_sublist.map _
  rwa [hall] at hkept

variable [DecidableEq β] (key : α → β)

/-- The items whose key no earlier item has. -/
def firstOccurrences (items : List α) : List α :=
  filterEarlier (fun earlier item => key item ∉ earlier.map key) items

/-- The items whose key an earlier item has. -/
def laterOccurrences (items : List α) : List α :=
  filterEarlier (fun earlier item => key item ∈ earlier.map key) items

theorem firstOccurrences_concat (items : List α) (item : α) :
    firstOccurrences key (items ++ [item]) =
      firstOccurrences key items ++ if key item ∈ items.map key then [] else [item] := by
  unfold firstOccurrences
  rw [filterEarlier_concat]
  by_cases h : key item ∈ items.map key
  · simp [h]
  · simp [h]

theorem laterOccurrences_concat (items : List α) (item : α) :
    laterOccurrences key (items ++ [item]) =
      laterOccurrences key items ++ if key item ∈ items.map key then [item] else [] := by
  unfold laterOccurrences
  rw [filterEarlier_concat]
  simp

/-- Every key has a first occurrence. -/
theorem mem_map_firstOccurrences {items : List α} {value : β} :
    value ∈ (firstOccurrences key items).map key ↔ value ∈ items.map key := by
  induction items using List.reverseRecOn with
  | nil => rfl
  | append_singleton items item ih =>
    rw [firstOccurrences_concat, List.map_append, List.map_append, List.mem_append, List.mem_append,
      ih]
    by_cases h : key item ∈ items.map key
    · rw [if_pos h]
      constructor
      · rintro (hvalue | hvalue)
        · exact .inl hvalue
        · simp at hvalue
      · rintro (hvalue | hvalue)
        · exact .inl hvalue
        · obtain rfl : value = key item := by simpa using hvalue
          exact .inl h
    · rw [if_neg h]

theorem nodup_map_firstOccurrences (items : List α) :
    ((firstOccurrences key items).map key).Nodup := by
  induction items using List.reverseRecOn with
  | nil => exact List.nodup_nil
  | append_singleton items item ih =>
    rw [firstOccurrences_concat]
    by_cases h : key item ∈ items.map key
    · rw [if_pos h, List.append_nil]
      exact ih
    · rw [if_neg h, List.map_append, List.nodup_append]
      refine ⟨ih, by simp, ?_⟩
      intro value hvalue other hother
      obtain rfl : other = key item := by simpa using hother
      rintro rfl
      exact h ((mem_map_firstOccurrences key).1 hvalue)

/-- The keys of first occurrences are the first occurrences of keys. -/
theorem map_firstOccurrences (items : List α) :
    (firstOccurrences key items).map key = firstOccurrences id (items.map key) := by
  induction items using List.reverseRecOn with
  | nil => rfl
  | append_singleton items item ih =>
    rw [List.map_append, List.map_singleton, firstOccurrences_concat, firstOccurrences_concat,
      List.map_append, ih, List.map_id]
    by_cases h : key item ∈ items.map key
    · rw [if_pos h, if_pos (by exact h), List.map_nil]
    · rw [if_neg h, if_neg (by exact h), List.map_singleton]

end EnumConverter
