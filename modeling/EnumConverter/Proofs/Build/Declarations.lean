import EnumConverter.Proofs.Build.Outcome
import Mathlib.Data.List.Forall2

namespace EnumConverter

open Source Scan Annotation RawEnum

/-- What an enum gives behind the enums `earlier`. -/
def account (settings : BuildSettings) (earlier : List RawEnum) (raw : RawEnum) :
    Option Declaration × List Diagnostic :=
  buildEnum settings ((buildEnums settings [] earlier).declarations.map (·.path)) raw

/-- The enums that are declared: they can be, and no earlier one that can be has their names. -/
def declaredEnums (settings : BuildSettings) (raws : List RawEnum) : List RawEnum :=
  filterEarlier (fun earlier raw => raw.Eligible settings ∧ ¬ raw.Taken settings earlier) raws

variable (settings : BuildSettings)

theorem buildEnums_append (declared : List QualifiedPath) (first second : List RawEnum) :
    buildEnums settings declared (first ++ second) =
      ⟨(buildEnums settings declared first).declarations ++
        (buildEnums settings (declared ++
          (buildEnums settings declared first).declarations.map (·.path)) second).declarations,
       (buildEnums settings declared first).diagnostics ++
        (buildEnums settings (declared ++
          (buildEnums settings declared first).declarations.map (·.path)) second).diagnostics⟩ := by
  induction first generalizing declared with
  | nil => simp [buildEnums]
  | cons raw first ih =>
    rw [List.cons_append, buildEnums, buildEnums]
    dsimp only
    rw [ih]
    simp

theorem buildEnums_concat (raws : List RawEnum) (raw : RawEnum) :
    buildEnums settings [] (raws ++ [raw]) =
      ⟨(buildEnums settings [] raws).declarations ++ (account settings raws raw).1.toList,
       (buildEnums settings [] raws).diagnostics ++ (account settings raws raw).2⟩ := by
  rw [buildEnums_append, List.nil_append]
  simp [buildEnums, account]

/-- Dropped enums take no path: the paths so far are those of the enums that can be declared. -/
theorem declared_buildEnums (raws : List RawEnum) :
    Declared settings raws ((buildEnums settings [] raws).declarations.map (·.path)) := by
  induction raws using List.reverseRecOn with
  | nil =>
    intro names
    simp [buildEnums]
  | append_singleton raws raw ih =>
    have houtcome : raw.Outcome settings raws (account settings raws raw) :=
      buildEnum_outcome ih raw
    intro names
    have hearlier := ih names
    rw [buildEnums_concat, List.map_append, List.map_append, List.mem_append, hearlier]
    constructor
    · rintro (⟨other, hother, heligible⟩ | hnew)
      · exact ⟨other, List.mem_append_left _ hother, heligible⟩
      · simp only [List.mem_map, Option.mem_toList] at hnew
        obtain ⟨-, ⟨declaration, hdeclaration, rfl⟩, rfl⟩ := hnew
        have hsome : (account settings raws raw).1.isSome = true :=
          Option.isSome_iff_exists.2 ⟨declaration, hdeclaration⟩
        exact ⟨raw, by simp, (houtcome.isSome_iff.1 hsome).1,
          (houtcome.declares declaration hdeclaration).components_eq.symm⟩
    · rintro ⟨other, hother, heligible, rfl⟩
      obtain hother | hother := List.mem_append.1 hother
      · exact .inl ⟨other, hother, heligible, rfl⟩
      obtain rfl := List.mem_singleton.1 hother
      -- The enum itself is declared, unless an earlier one has its names.
      by_cases htaken : other.Taken settings raws
      · exact .inl htaken
      · obtain ⟨declaration, hdeclaration⟩ :=
          Option.isSome_iff_exists.1 (houtcome.isSome_iff.2 ⟨heligible, htaken⟩)
        refine .inr ?_
        simp only [List.mem_map, Option.mem_toList]
        exact ⟨declaration.path, ⟨declaration, hdeclaration, rfl⟩,
          (houtcome.declares declaration hdeclaration).components_eq⟩

theorem account_outcome (earlier : List RawEnum) (raw : RawEnum) :
    raw.Outcome settings earlier (account settings earlier raw) :=
  buildEnum_outcome (declared_buildEnums settings earlier) raw

theorem declaredEnums_concat (raws : List RawEnum) (raw : RawEnum) :
    declaredEnums settings (raws ++ [raw]) = declaredEnums settings raws ++
      if raw.Eligible settings ∧ ¬ raw.Taken settings raws then [raw] else [] := by
  unfold declaredEnums
  rw [filterEarlier_concat]
  simp only [decide_eq_true_eq]

theorem forall₂_declarations (raws : List RawEnum) :
    List.Forall₂ (fun raw declaration => raw.Declares settings.marker declaration)
      (declaredEnums settings raws) (buildEnums settings [] raws).declarations := by
  induction raws using List.reverseRecOn with
  | nil => exact .nil
  | append_singleton raws raw ih =>
    have houtcome := account_outcome settings raws raw
    rw [declaredEnums_concat, buildEnums_concat]
    apply List.rel_append ih
    by_cases hdeclared : raw.Eligible settings ∧ ¬ raw.Taken settings raws
    · obtain ⟨declaration, hdeclaration⟩ :=
        Option.isSome_iff_exists.1 (houtcome.isSome_iff.2 hdeclared)
      rw [if_pos hdeclared, hdeclaration]
      exact .cons (houtcome.declares declaration hdeclaration) .nil
    · have hnone : (account settings raws raw).1 = none := by
        rw [← Option.not_isSome_iff_eq_none]
        exact mt houtcome.isSome_iff.1 hdeclared
      rw [if_neg hdeclared, hnone]
      exact .nil

/-- Every declaration comes from one of the enums that are declared. -/
theorem exists_declares (raws : List RawEnum) :
    ∀ declaration ∈ (buildEnums settings [] raws).declarations,
      ∃ raw ∈ declaredEnums settings raws, raw.Declares settings.marker declaration := by
  intro declaration hdeclaration
  obtain ⟨hlength, hpaired⟩ := List.forall₂_iff_get.1 (forall₂_declarations settings raws)
  obtain ⟨index, hindex, rfl⟩ := List.mem_iff_getElem.1 hdeclaration
  exact ⟨_, List.getElem_mem (by omega), hpaired index (by omega) hindex⟩

theorem mem_declaredEnums {raws : List RawEnum} {raw : RawEnum}
    (h : raw ∈ declaredEnums settings raws) : raw ∈ raws ∧ raw.Eligible settings := by
  induction raws using List.reverseRecOn with
  | nil => cases h
  | append_singleton raws last ih =>
    rw [declaredEnums_concat, List.mem_append] at h
    obtain h | h := h
    · exact ⟨List.mem_append_left _ (ih h).1, (ih h).2⟩
    · split at h
      · rename_i hlast
        obtain rfl := List.mem_singleton.1 h
        exact ⟨by simp, hlast.1⟩
      · cases h

theorem nodup_declaredEnums (raws : List RawEnum) :
    ((declaredEnums settings raws).map components).Nodup := by
  induction raws using List.reverseRecOn with
  | nil => exact List.nodup_nil
  | append_singleton raws raw ih =>
    rw [declaredEnums_concat]
    split
    · rename_i hdeclared
      rw [List.map_append, List.nodup_append]
      refine ⟨ih, by simp, ?_⟩
      intro names hnames other hother
      obtain rfl : other = raw.components := by simpa using hother
      obtain ⟨earlier, hearlier, rfl⟩ := List.mem_map.1 hnames
      obtain ⟨hmem, heligible⟩ := mem_declaredEnums settings hearlier
      intro hsame
      exact hdeclared.2 ⟨earlier, hmem, heligible, hsame⟩
    · rw [List.append_nil]
      exact ih

theorem components_declarations (raws : List RawEnum) :
    (buildEnums settings [] raws).declarations.map (·.path.components) =
      (declaredEnums settings raws).map components := by
  have hsame : List.Forall₂ (· = ·)
      ((buildEnums settings [] raws).declarations.map (·.path.components))
      ((declaredEnums settings raws).map components) := by
    rw [List.forall₂_map_left_iff, List.forall₂_map_right_iff]
    exact ((forall₂_declarations settings raws).imp fun _ _ hdeclares => hdeclares.components_eq).flip
  rwa [List.forall₂_eq_eq_eq] at hsame

theorem Scan.RawEnum.Declares.names_eq {marker : Marker} {raw : RawEnum} {declaration : Declaration}
    (h : raw.Declares marker declaration) :
    declaration.enumerators.map (·.name) = firstOccurrences id (raw.enumerators.map (·.name)) := by
  rw [h.enumerators, List.map_map, ← map_firstOccurrences]
  rfl

theorem Scan.RawEnum.Declares.requested_ne_nil {settings : BuildSettings} {raw : RawEnum}
    {declaration : Declaration} (h : raw.Declares settings.marker declaration)
    (heligible : raw.Eligible settings) : declaration.requested.isEmpty = false := by
  obtain ⟨content, hcontent, hrequest⟩ := heligible.requests
  obtain ⟨kind, hkind⟩ := Option.isSome_iff_exists.1 hrequest
  have hmem : kind ∈ declaration.requested.toList :=
    ConversionSet.mem_toList.2 ((h.requested kind).2 ⟨content, hcontent, hkind⟩)
  rw [ConversionSet.isEmpty, List.isEmpty_eq_false_iff]
  exact List.ne_nil_of_mem hmem

theorem Scan.RawEnum.Declares.enumerators_ne_nil {settings : BuildSettings} {raw : RawEnum}
    {declaration : Declaration} (h : raw.Declares settings.marker declaration)
    (heligible : raw.Eligible settings) : declaration.enumerators ≠ [] := by
  obtain ⟨enumerator, rest, hraw⟩ := List.exists_cons_of_ne_nil heligible.inhabited
  intro hnone
  have hnames := h.names_eq
  have hname : enumerator.name ∈ firstOccurrences id (raw.enumerators.map (·.name)) := by
    have hmem : enumerator.name ∈ raw.enumerators.map (·.name) := by simp [hraw]
    simpa using (mem_map_firstOccurrences id).2 (by simpa using hmem)
  rw [← hnames, hnone] at hname
  cases hname

/-- The declarations of a source are those of the enums that can be declared and are the first with
their names, in source order. Their paths are different, and each of them requests a conversion and has
enumerators, with the names of the enum in the order of their first occurrence. -/
theorem build_declarations (source : String) :
    List.Forall₂
      (fun raw declaration => raw.Declares settings.marker declaration ∧
        declaration.enumerators.map (·.name) =
          firstOccurrences id (raw.enumerators.map (·.name)))
      (declaredEnums settings (scan source).enums) (build settings source).declarations ∧
    ((build settings source).declarations.map (·.path.components)).Nodup ∧
    ∀ declaration ∈ (build settings source).declarations,
      declaration.requested.isEmpty = false ∧ declaration.enumerators ≠ [] ∧
        (declaration.enumerators.map (·.name)).Nodup := by
  have hdeclarations := forall₂_declarations settings (scan source).enums
  refine ⟨?_, ?_, ?_⟩
  · exact hdeclarations.imp fun raw declaration hdeclares => ⟨hdeclares, hdeclares.names_eq⟩
  · change ((buildEnums settings [] (scan source).enums).declarations.map
      (·.path.components)).Nodup
    rw [components_declarations]
    exact nodup_declaredEnums settings (scan source).enums
  · intro declaration hdeclaration
    obtain ⟨raw, hraw, hdeclares⟩ := exists_declares settings _ declaration hdeclaration
    have heligible := (mem_declaredEnums settings hraw).2
    refine ⟨hdeclares.requested_ne_nil heligible, hdeclares.enumerators_ne_nil heligible, ?_⟩
    rw [hdeclares.names_eq]
    simpa using nodup_map_firstOccurrences id (raw.enumerators.map (·.name))

end EnumConverter
