import EnumConverter.Proofs.Build.Declarations
import EnumConverter.Proofs.Build.Report
import Mathlib.Data.List.TakeWhile

namespace EnumConverter

open Source Scan Annotation RawEnum

/-- The diagnostics that a dropped enum leaves at its definition. -/
def dropReports (diagnostics : List Diagnostic) : List Diagnostic :=
  diagnostics.filter (·.kind ∈ dropKinds)

/-- The reports of lines that are not understood. -/
def unrecognizedReports (diagnostics : List Diagnostic) : List Diagnostic :=
  diagnostics.filter (·.kind = .unrecognizedDirective)

namespace Scan.RawEnum

variable (settings : BuildSettings) (earlier : List RawEnum) (raw : RawEnum)
  (result : Option Declaration × List Diagnostic)

/-- The enum is declared. -/
def IsDeclared : Prop :=
  (∃ declaration, result.1 = some declaration ∧ raw.Declares settings.marker declaration) ∧
    dropReports result.2 = []

/-- The enum is dropped with one report at its definition, which is about its first fault. -/
def IsReported : Prop :=
  result.1 = none ∧ ∃ diagnostic, dropReports result.2 = [diagnostic] ∧
    diagnostic.position = raw.position ∧ raw.firstFault? settings earlier = some diagnostic.kind

/-- The enum is dropped for directives that are not understood. -/
def IsSuppressed : Prop :=
  settings.strict = true ∧ raw.unrecognizedLines settings.marker ≠ [] ∧
    result.1 = none ∧ dropReports result.2 = []

/-- How what an enum gives behind the enums `earlier` is accounted for. -/
structure Accounted : Prop where
  silent : ¬ raw.Annotated settings.marker → result = (none, [])
  accounted : raw.Annotated settings.marker →
    raw.IsDeclared settings result ∨ raw.IsReported settings earlier result ∨
      raw.IsSuppressed settings result
  exclusive : ¬ (raw.IsDeclared settings result ∧ raw.IsReported settings earlier result) ∧
    ¬ (raw.IsDeclared settings result ∧ raw.IsSuppressed settings result) ∧
    ¬ (raw.IsReported settings earlier result ∧ raw.IsSuppressed settings result)
  /-- Each line that is not understood is reported where it stands. -/
  unrecognized : raw.Annotated settings.marker →
    positionsOf .unrecognizedDirective result.2 =
      (raw.unrecognizedLines settings.marker).map fun content => ⟨content.line, 1⟩
  /-- Of a declared enum, each enumerator whose name occurred before is reported where it stands. -/
  repeated : positionsOf .duplicateEnumerator result.2 =
    if result.1.isSome then (laterOccurrences (·.name) raw.enumerators).map (·.position) else []
  /-- Of a declared enum, each problem with an override is reported where the enumerator stands. -/
  malformed : positionsOf .malformedOverride result.2 =
    if result.1.isSome then
      (firstOccurrences (·.name) raw.enumerators).flatMap fun enumerator =>
        enumerator.overrides.problems.map fun _ => enumerator.position
    else []
  /-- Nothing else is reported. -/
  complete : ∀ diagnostic ∈ result.2, diagnostic.kind ∈ dropKinds ∨
    diagnostic.kind = .unrecognizedDirective ∨ diagnostic.kind = .duplicateEnumerator ∨
    diagnostic.kind = .malformedOverride

end Scan.RawEnum

variable {settings : BuildSettings} {earlier : List RawEnum} {raw : RawEnum}
  {result : Option Declaration × List Diagnostic}

theorem dropReports_append (first second : List Diagnostic) :
    dropReports (first ++ second) = dropReports first ++ dropReports second :=
  List.filter_append ..

theorem dropReports_eq_nil {diagnostics : List Diagnostic}
    (h : ∀ diagnostic ∈ diagnostics, diagnostic.kind ∉ dropKinds) : dropReports diagnostics = [] := by
  rw [dropReports, List.filter_eq_nil_iff]
  intro diagnostic hdiagnostic
  simpa using h diagnostic hdiagnostic

theorem unrecognizedReports_append (first second : List Diagnostic) :
    unrecognizedReports (first ++ second) = unrecognizedReports first ++ unrecognizedReports second :=
  List.filter_append ..

theorem unrecognizedReports_eq_nil {diagnostics : List Diagnostic}
    (h : ∀ diagnostic ∈ diagnostics, diagnostic.kind ≠ .unrecognizedDirective) :
    unrecognizedReports diagnostics = [] := by
  rw [unrecognizedReports, List.filter_eq_nil_iff]
  intro diagnostic hdiagnostic
  simpa using h diagnostic hdiagnostic

theorem kind_directiveWarnings (marker : Marker) (raw : RawEnum) :
    ∀ diagnostic ∈ raw.directiveWarnings marker, diagnostic.kind = .unrecognizedDirective := by
  simp [directiveWarnings]

theorem dropReports_directiveWarnings (marker : Marker) (raw : RawEnum) :
    dropReports (raw.directiveWarnings marker) = [] := by
  apply dropReports_eq_nil
  intro diagnostic hdiagnostic
  rw [kind_directiveWarnings marker raw diagnostic hdiagnostic]
  decide

theorem unrecognizedReports_directiveWarnings (marker : Marker) (raw : RawEnum) :
    unrecognizedReports (raw.directiveWarnings marker) = raw.directiveWarnings marker := by
  rw [unrecognizedReports, List.filter_eq_self]
  intro diagnostic hdiagnostic
  simpa using kind_directiveWarnings marker raw diagnostic hdiagnostic

theorem Scan.RawEnum.directiveWarnings_of_not_annotated {marker : Marker}
    (h : ¬ raw.Annotated marker) : raw.directiveWarnings marker = [] := by
  have hnone : raw.doc.contentLines.dropWhile (!marker.opens ·) = [] := by
    rw [List.dropWhile_eq_nil_iff]
    intro content hcontent
    simpa using fun hopens => h ⟨content, hcontent, hopens⟩
  rw [directiveWarnings, unrecognizedLines, Marker.unrecognizedLines, Marker.directiveLines, hnone]
  rfl

theorem positionsOf_directiveWarnings_of_ne {kind : DiagnosticKind}
    (hkind : kind ≠ .unrecognizedDirective) (marker : Marker) (raw : RawEnum) :
    positionsOf kind (raw.directiveWarnings marker) = [] := by
  apply positionsOf_of_ne
  intro diagnostic hdiagnostic
  rw [kind_directiveWarnings marker raw diagnostic hdiagnostic]
  exact hkind.symm

theorem dropReports_buildEnumerators (path : QualifiedPath) (raws : List RawEnumerator) :
    dropReports (buildEnumerators path [] raws).2 = [] := by
  apply dropReports_eq_nil
  intro diagnostic hdiagnostic
  obtain hkind | hkind := buildEnumerators_kinds path raws diagnostic hdiagnostic
  · rw [hkind]
    decide
  · rw [hkind]
    decide

theorem mem_dropKinds_of_firstFault? {kind : DiagnosticKind}
    (h : raw.firstFault? settings earlier = some kind) : kind ∈ dropKinds :=
  List.mem_of_find?_eq_some h

/-- A report of a fault is no report of any other kind. -/
theorem positionsOf_report {kind : DiagnosticKind} (hkind : kind ∉ dropKinds)
    {diagnostic : Diagnostic} (h : diagnostic.kind ∈ dropKinds) :
    positionsOf kind [diagnostic] = [] := by
  apply positionsOf_of_ne
  intro other hother
  obtain rfl := List.mem_singleton.1 hother
  rintro rfl
  exact hkind h

namespace Scan.RawEnum.Outcome

variable (h : raw.Outcome settings earlier result)
include h

theorem trichotomy (hannotated : raw.Annotated settings.marker) :
    raw.IsDeclared settings result ∨ raw.IsReported settings earlier result ∨
      raw.IsSuppressed settings result := by
  cases h with
  | unmarked hnone => exact absurd hannotated hnone
  | suppressed _ hstrict hlines =>
    exact .inr (.inr ⟨hstrict, hlines, rfl, dropReports_directiveWarnings _ raw⟩)
  | dropped _ _ hposition hfault =>
    rename_i diagnostic
    have hreport : dropReports (raw.directiveWarnings settings.marker ++ [diagnostic]) =
        [diagnostic] := by
      rw [dropReports_append, dropReports_directiveWarnings, List.nil_append]
      simp [dropReports, mem_dropKinds_of_firstFault? hfault]
    exact .inr (.inl ⟨rfl, diagnostic, hreport, hposition, hfault⟩)
  | declared _ _ _ hdeclares =>
    rename_i declaration
    refine .inl ⟨⟨declaration, rfl, hdeclares⟩, ?_⟩
    rw [dropReports_append, dropReports_directiveWarnings, dropReports_buildEnumerators]
    rfl

/-- Whatever becomes of an enum, its lines that are not understood are reported. -/
theorem unrecognizedReports_eq :
    unrecognizedReports result.2 = raw.directiveWarnings settings.marker := by
  have hwarnings := unrecognizedReports_directiveWarnings settings.marker raw
  cases h with
  | unmarked hannotated =>
    rw [directiveWarnings_of_not_annotated hannotated]
    rfl
  | suppressed => exact hwarnings
  | @dropped _ _ diagnostic _ hfault =>
    have hother : unrecognizedReports [diagnostic] = [] := by
      apply unrecognizedReports_eq_nil
      intro other hmem hkind
      rw [List.mem_singleton.1 hmem] at hkind
      have hdrop := mem_dropKinds_of_firstFault? hfault
      rw [hkind] at hdrop
      exact absurd hdrop (by decide)
    rw [unrecognizedReports_append, hwarnings, hother, List.append_nil]
  | declared =>
    rename_i declaration _
    have hother : unrecognizedReports
        (buildEnumerators declaration.path [] raw.enumerators).2 = [] := by
      apply unrecognizedReports_eq_nil
      intro diagnostic hdiagnostic
      obtain hkind | hkind := buildEnumerators_kinds _ _ diagnostic hdiagnostic
      · rw [hkind]
        decide
      · rw [hkind]
        decide
    rw [unrecognizedReports_append, hwarnings, hother, List.append_nil]

theorem unrecognized_positions : positionsOf .unrecognizedDirective result.2 =
    (raw.unrecognizedLines settings.marker).map fun content => ⟨content.line, 1⟩ := by
  calc positionsOf .unrecognizedDirective result.2
    _ = (unrecognizedReports result.2).map (·.position) := rfl
    _ = _ := by
      rw [h.unrecognizedReports_eq, directiveWarnings, List.map_map]
      rfl

/-- Reports about enumerators come from declared enums only. -/
theorem enumerator_positions {kind : DiagnosticKind} (hkind : kind ∉ dropKinds)
    (hwarning : kind ≠ .unrecognizedDirective) {positions : List Position}
    (hpositions : ∀ path, positionsOf kind (buildEnumerators path [] raw.enumerators).2 = positions) :
    positionsOf kind result.2 = if result.1.isSome then positions else [] := by
  have hwarnings := positionsOf_directiveWarnings_of_ne hwarning settings.marker raw
  cases h with
  | unmarked => rfl
  | suppressed => exact hwarnings
  | dropped _ _ _ hfault =>
    rw [positionsOf_append, hwarnings, List.nil_append]
    exact positionsOf_report hkind (mem_dropKinds_of_firstFault? hfault)
  | declared =>
    rw [positionsOf_append, hwarnings, List.nil_append, hpositions]
    rfl

theorem kinds : ∀ diagnostic ∈ result.2, diagnostic.kind ∈ dropKinds ∨
    diagnostic.kind = .unrecognizedDirective ∨ diagnostic.kind = .duplicateEnumerator ∨
    diagnostic.kind = .malformedOverride := by
  intro diagnostic hdiagnostic
  cases h with
  | unmarked => cases hdiagnostic
  | suppressed => exact .inr (.inl (kind_directiveWarnings _ raw diagnostic hdiagnostic))
  | dropped _ _ _ hfault =>
    obtain hwarning | hreport := List.mem_append.1 hdiagnostic
    · exact .inr (.inl (kind_directiveWarnings _ raw diagnostic hwarning))
    · obtain rfl := List.mem_singleton.1 hreport
      exact .inl (mem_dropKinds_of_firstFault? hfault)
  | declared =>
    obtain hwarning | hproblem := List.mem_append.1 hdiagnostic
    · exact .inr (.inl (kind_directiveWarnings _ raw diagnostic hwarning))
    · exact .inr (.inr (buildEnumerators_kinds _ _ diagnostic hproblem))

theorem accounted : raw.Accounted settings earlier result where
  silent := by
    intro hannotated
    cases h with
    | unmarked => rfl
    | _ => contradiction
  accounted := h.trichotomy
  exclusive := by
    refine ⟨?_, ?_, ?_⟩
    · rintro ⟨⟨⟨declaration, hsome, -⟩, -⟩, hnone, -⟩
      rw [hnone] at hsome
      cases hsome
    · rintro ⟨⟨⟨declaration, hsome, -⟩, -⟩, -, -, hnone, -⟩
      rw [hnone] at hsome
      cases hsome
    · rintro ⟨⟨-, diagnostic, hreport, -⟩, -, -, -, hnothing⟩
      rw [hnothing] at hreport
      cases hreport
  unrecognized := fun _ => h.unrecognized_positions
  repeated := h.enumerator_positions (by decide) (by decide) fun path =>
    buildEnumerators_repeated path raw.enumerators
  malformed := h.enumerator_positions (by decide) (by decide) fun path =>
    buildEnumerators_malformed path raw.enumerators
  complete := h.kinds

end Scan.RawEnum.Outcome

theorem exists_outcome (settings : BuildSettings) {raws : List RawEnum} {diagnostic : Diagnostic}
    (h : diagnostic ∈ (buildEnums settings [] raws).diagnostics) :
    ∃ raw ∈ raws, ∃ earlier result, raw.Outcome settings earlier result ∧ diagnostic ∈ result.2 := by
  induction raws using List.reverseRecOn with
  | nil => simp [buildEnums] at h
  | append_singleton raws raw ih =>
    rw [buildEnums_concat] at h
    obtain hearlier | hlast := List.mem_append.1 h
    · obtain ⟨other, hother, houtcome⟩ := ih hearlier
      exact ⟨other, List.mem_append_left _ hother, houtcome⟩
    · exact ⟨raw, by simp, raws, _, account_outcome settings raws raw, hlast⟩

theorem buildEnums_eq_accounts (settings : BuildSettings) (raws : List RawEnum) :
    buildEnums settings [] raws =
      ⟨(mapEarlier (account settings) raws).flatMap (·.1.toList),
       (mapEarlier (account settings) raws).flatMap (·.2)⟩ := by
  induction raws using List.reverseRecOn with
  | nil => rfl
  | append_singleton raws raw ih =>
    rw [buildEnums_concat, mapEarlier_concat, ih]
    simp

/-- What building returns is what the enums of the source give, in the order of their places, and each
enum is accounted for. -/
theorem build_accounts (settings : BuildSettings) (source : String) :
    let raws := (scan source).enums
    let accounts := mapEarlier (account settings) raws
    let reports := (scan source).diagnostics ++ accounts.flatMap (·.2)
    (build settings source).declarations = accounts.flatMap (·.1.toList) ∧
    (build settings source).diagnostics.Perm reports ∧
    ((build settings source).diagnostics.Pairwise fun a b =>
      a.position.notAfter b.position = true) ∧
    (∀ place, (build settings source).diagnostics.filter (·.position = place) =
      reports.filter (·.position = place)) ∧
    (∀ diagnostic ∈ (scan source).diagnostics, diagnostic.kind = .unbalancedScope) ∧
    ∀ (index : Nat) (raw : RawEnum), raws[index]? = some raw →
      ∃ result, accounts[index]? = some result ∧
      raw.Accounted settings (raws.take index) result := by
  intro raws accounts reports
  have hbuild : build settings source =
      ⟨accounts.flatMap (·.1.toList), sortDiagnostics reports⟩ := by
    unfold build
    dsimp only
    rw [buildEnums_eq_accounts]
  rw [hbuild]
  refine ⟨rfl, sortDiagnostics_perm reports, pairwise_sortDiagnostics reports,
    filter_sortDiagnostics reports, scan_onlyBraces source, ?_⟩
  intro index raw hraw
  refine ⟨account settings (raws.take index) raw, ?_,
    (account_outcome settings _ raw).accounted⟩
  simp [accounts, mapEarlier, hraw]

end EnumConverter
