import EnumConverter.Build
import EnumConverter.Proofs.Build.Earlier

namespace EnumConverter

open Source Scan Annotation

/-- The overrides in the comments behind an enumerator. -/
def Scan.RawEnumerator.overrides (raw : RawEnumerator) : Overrides :=
  Overrides.ofFragments raw.overrideTexts

/-- The report of an enumerator whose name was seen before. -/
def repeatedName (path : QualifiedPath) (raw : RawEnumerator) : Diagnostic where
  kind := .duplicateEnumerator
  message := "enumerator '" ++ raw.name ++ "' appears twice in '" ++ path.display ++
    "'; keeping the first"
  position := raw.position

/-- The reports of what is wrong with the overrides of an enumerator. -/
def overrideProblems (path : QualifiedPath) (raw : RawEnumerator) : List Diagnostic :=
  raw.overrides.problems.map fun problem =>
    { kind := .malformedOverride
      message := path.display ++ "::" ++ raw.name ++ ": " ++ problem.message
      position := raw.position }

variable (path : QualifiedPath)

theorem buildEnumerators_singleton (seen : List String) (raw : RawEnumerator) :
    buildEnumerators path seen [raw] =
      if raw.name ∈ seen then ([], [repeatedName path raw])
      else ([enumeratorOf raw raw.overrides], overrideProblems path raw) := by
  rw [buildEnumerators]
  split
  · rfl
  · dsimp only [buildEnumerators]
    rw [List.append_nil]
    rfl

/-- Enumerators are read one after the other: what follows is read with the names that were kept. -/
theorem buildEnumerators_append (seen : List String) (first second : List RawEnumerator) :
    buildEnumerators path seen (first ++ second) =
      ((buildEnumerators path seen first).1 ++
        (buildEnumerators path
          (seen ++ (buildEnumerators path seen first).1.map (·.name)) second).1,
       (buildEnumerators path seen first).2 ++
        (buildEnumerators path
          (seen ++ (buildEnumerators path seen first).1.map (·.name)) second).2) := by
  induction first generalizing seen with
  | nil => simp [buildEnumerators]
  | cons raw first ih =>
    rw [List.cons_append, buildEnumerators, buildEnumerators]
    by_cases hseen : raw.name ∈ seen
    · rw [if_pos hseen, if_pos hseen]
      dsimp only
      rw [ih seen]
      rfl
    · rw [if_neg hseen, if_neg hseen]
      dsimp only
      rw [ih (seen ++ [raw.name])]
      simp [enumeratorOf]

/-- The names that are kept are those of all enumerators. -/
theorem mem_names_kept (raws : List RawEnumerator) (name : String) :
    name ∈ (buildEnumerators path [] raws).1.map (·.name) ↔ name ∈ raws.map (·.name) := by
  induction raws using List.reverseRecOn with
  | nil => rfl
  | append_singleton raws raw ih =>
    rw [buildEnumerators_append, List.nil_append, buildEnumerators_singleton, List.map_append,
      List.map_append, List.mem_append, List.mem_append, ih]
    split
    · rename_i hkept
      -- A name that is dropped is the name of an enumerator that was kept.
      have hname : raw.name ∈ (buildEnumerators path [] raws).1.map (·.name) := hkept
      constructor
      · rintro (hmem | hmem)
        · exact .inl hmem
        · simp at hmem
      · rintro (hmem | hmem)
        · exact .inl hmem
        · obtain rfl : name = raw.name := by simpa using hmem
          exact .inl (ih.1 hname)
    · rfl

theorem buildEnumerators_concat (raws : List RawEnumerator) (raw : RawEnumerator) :
    buildEnumerators path [] (raws ++ [raw]) =
      if raw.name ∈ raws.map (·.name) then
        ((buildEnumerators path [] raws).1,
          (buildEnumerators path [] raws).2 ++ [repeatedName path raw])
      else
        ((buildEnumerators path [] raws).1 ++ [enumeratorOf raw raw.overrides],
          (buildEnumerators path [] raws).2 ++ overrideProblems path raw) := by
  have hseen := mem_names_kept path raws raw.name
  rw [buildEnumerators_append, List.nil_append, buildEnumerators_singleton]
  by_cases hname : raw.name ∈ raws.map (·.name)
  · rw [if_pos (hseen.2 hname), if_pos hname, List.append_nil]
  · rw [if_neg (mt hseen.1 hname), if_neg hname]

theorem buildEnumerators_kept (raws : List RawEnumerator) :
    (buildEnumerators path [] raws).1 =
      (firstOccurrences (·.name) raws).map fun raw => enumeratorOf raw raw.overrides := by
  induction raws using List.reverseRecOn with
  | nil => rfl
  | append_singleton raws raw ih =>
    rw [buildEnumerators_concat, firstOccurrences_concat, List.map_append, ← ih]
    by_cases hname : raw.name ∈ raws.map (·.name)
    · rw [if_pos hname, if_pos hname, List.map_nil, List.append_nil]
    · rw [if_neg hname, if_neg hname, List.map_singleton]

/-- The places of all diagnostics of a kind, in order. -/
def positionsOf (kind : DiagnosticKind) (diagnostics : List Diagnostic) : List Position :=
  (diagnostics.filter (·.kind = kind)).map (·.position)

theorem positionsOf_append (kind : DiagnosticKind) (first second : List Diagnostic) :
    positionsOf kind (first ++ second) = positionsOf kind first ++ positionsOf kind second := by
  simp [positionsOf]

/-- Diagnostics of one kind all count for this kind. -/
theorem positionsOf_self {kind : DiagnosticKind} {diagnostics : List Diagnostic}
    (h : ∀ diagnostic ∈ diagnostics, diagnostic.kind = kind) :
    positionsOf kind diagnostics = diagnostics.map (·.position) := by
  rw [positionsOf, List.filter_eq_self.2]
  intro diagnostic hdiagnostic
  simpa using h diagnostic hdiagnostic

theorem positionsOf_of_ne {kind : DiagnosticKind} {diagnostics : List Diagnostic}
    (h : ∀ diagnostic ∈ diagnostics, diagnostic.kind ≠ kind) :
    positionsOf kind diagnostics = [] := by
  rw [positionsOf, List.filter_eq_nil_iff.2, List.map_nil]
  intro diagnostic hdiagnostic
  simpa using h diagnostic hdiagnostic

theorem kind_overrideProblems (raw : RawEnumerator) :
    ∀ diagnostic ∈ overrideProblems path raw, diagnostic.kind = .malformedOverride := by
  simp [overrideProblems]

/-- Every later enumerator of a name is reported where it stands. -/
theorem buildEnumerators_repeated (raws : List RawEnumerator) :
    positionsOf .duplicateEnumerator (buildEnumerators path [] raws).2 =
      (laterOccurrences (·.name) raws).map (·.position) := by
  induction raws using List.reverseRecOn with
  | nil => rfl
  | append_singleton raws raw ih =>
    rw [buildEnumerators_concat, laterOccurrences_concat, List.map_append, ← ih]
    by_cases hname : raw.name ∈ raws.map (·.name)
    · rw [if_pos hname, if_pos hname, positionsOf_append]
      rfl
    · have hproblems : positionsOf .duplicateEnumerator (overrideProblems path raw) = [] := by
        apply positionsOf_of_ne
        intro diagnostic hdiagnostic
        rw [kind_overrideProblems path raw diagnostic hdiagnostic]
        decide
      rw [if_neg hname, if_neg hname, positionsOf_append, hproblems, List.map_nil]

/-- Every problem with the overrides of an enumerator that is kept is reported where the enumerator
stands. -/
theorem buildEnumerators_malformed (raws : List RawEnumerator) :
    positionsOf .malformedOverride (buildEnumerators path [] raws).2 =
      (firstOccurrences (·.name) raws).flatMap fun raw =>
        raw.overrides.problems.map fun _ => raw.position := by
  induction raws using List.reverseRecOn with
  | nil => rfl
  | append_singleton raws raw ih =>
    rw [buildEnumerators_concat, firstOccurrences_concat, List.flatMap_append, ← ih]
    by_cases hname : raw.name ∈ raws.map (·.name)
    · rw [if_pos hname, if_pos hname, positionsOf_append]
      rfl
    · rw [if_neg hname, if_neg hname, positionsOf_append, List.flatMap_singleton,
        positionsOf_self (kind_overrideProblems path raw), overrideProblems, List.map_map]
      rfl

/-- Enumerators leave no other diagnostics. -/
theorem buildEnumerators_kinds (raws : List RawEnumerator) :
    ∀ diagnostic ∈ (buildEnumerators path [] raws).2,
      diagnostic.kind = .duplicateEnumerator ∨ diagnostic.kind = .malformedOverride := by
  induction raws using List.reverseRecOn with
  | nil => simp [buildEnumerators]
  | append_singleton raws raw ih =>
    intro diagnostic hdiagnostic
    rw [buildEnumerators_concat] at hdiagnostic
    split at hdiagnostic
    · obtain hearlier | hrepeated := List.mem_append.1 hdiagnostic
      · exact ih diagnostic hearlier
      · obtain rfl := List.mem_singleton.1 hrepeated
        exact .inl rfl
    · obtain hearlier | hproblem := List.mem_append.1 hdiagnostic
      · exact ih diagnostic hearlier
      · exact .inr (kind_overrideProblems path raw diagnostic hproblem)

end EnumConverter
