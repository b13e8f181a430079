import EnumConverter.Proofs.Build.Accounts
import EnumConverter.Proofs.Path.Order

namespace EnumConverter

open Source Scan Annotation RawEnum

/-- Whether an enum of a path is declared. What kinds of scopes the names stand for does not count. -/
def Built.DeclaresPath (built : Built) (path : QualifiedPath) : Prop :=
  ∃ declaration ∈ built.declarations, declaration.path.sameNames path = true

/-- An enum has a path if it has a name. -/
def Scan.RawEnum.HasPath (raw : RawEnum) (path : QualifiedPath) : Prop :=
  ∃ name, raw.name = some name ∧ QualifiedPath.sameNames ⟨raw.scope, name⟩ path = true

/-- An enum that asks for a path: it can be declared unless its directives are at fault. -/
structure Scan.RawEnum.AsksFor (marker : Marker) (raw : RawEnum) (path : QualifiedPath) : Prop where
  path : raw.HasPath path
  annotated : raw.Annotated marker
  requests : ∃ content ∈ raw.directiveLines marker, (request? content).isSome = true
  inhabited : raw.enumerators ≠ []

variable {marker : Marker} {settings : BuildSettings} {raw : RawEnum} {path : QualifiedPath}

theorem QualifiedPath.sameNames_iff {other : QualifiedPath} :
    path.sameNames other = true ↔ path.components = other.components :=
  decide_eq_true_iff

/-- The reports of lines that are not understood depend on the marker alone. -/
theorem unrecognizedReports_buildEnums (settings : BuildSettings) (raws : List RawEnum) :
    unrecognizedReports (buildEnums settings [] raws).diagnostics =
      raws.flatMap (·.directiveWarnings settings.marker) := by
  induction raws using List.reverseRecOn with
  | nil => rfl
  | append_singleton raws raw ih =>
    rw [buildEnums_concat, unrecognizedReports_append, ih,
      (account_outcome settings raws raw).unrecognizedReports_eq, List.flatMap_append,
      List.flatMap_singleton]

theorem unrecognizedReports_build (settings : BuildSettings) (source : String) :
    unrecognizedReports (build settings source).diagnostics =
      sortDiagnostics ((scan source).enums.flatMap (·.directiveWarnings settings.marker)) := by
  have hbraces : unrecognizedReports (scan source).diagnostics = [] := by
    apply unrecognizedReports_eq_nil
    intro diagnostic hdiagnostic
    rw [scan_onlyBraces source diagnostic hdiagnostic]
    decide
  have hsorted (diagnostics : List Diagnostic) : unrecognizedReports (sortDiagnostics diagnostics) =
      sortDiagnostics (unrecognizedReports diagnostics) :=
    filter_mergeSort (fun a b c => Position.notAfter_trans a.position b.position c.position)
      (fun a b => Position.notAfter_total a.position b.position) _ _
  unfold build
  dsimp only
  rw [hsorted, unrecognizedReports_append, hbraces, unrecognizedReports_buildEnums, List.nil_append]

/-- A path is declared if one of the enums that can be declared has it. -/
theorem declaresPath_build {source : String} :
    (build settings source).DeclaresPath path ↔
      ∃ raw ∈ (scan source).enums, raw.Eligible settings ∧ raw.components = path.components := by
  rw [← declared_buildEnums settings (scan source).enums, List.map_map, List.mem_map]
  exact exists_congr fun declaration => and_congr_right fun _ => QualifiedPath.sameNames_iff

theorem eligible_lenient_iff :
    raw.Eligible { marker, strict := false } ∧ raw.components = path.components ↔
      raw.AsksFor marker path := by
  constructor
  · rintro ⟨heligible, hnames⟩
    obtain ⟨name, hname⟩ := Option.isSome_iff_exists.1 heligible.named
    refine ⟨⟨name, hname, ?_⟩, heligible.annotated, heligible.requests, heligible.inhabited⟩
    rw [QualifiedPath.sameNames_iff, ← hnames]
    simp [RawEnum.components, QualifiedPath.components, hname]
  · rintro ⟨⟨name, hname, hsame⟩, hannotated, hrequests, hinhabited⟩
    refine ⟨⟨hannotated, hrequests, by simp [hname], hinhabited, by simp⟩, ?_⟩
    rw [← QualifiedPath.sameNames_iff.1 hsame]
    simp [RawEnum.components, QualifiedPath.components, hname]

theorem eligible_strict_iff :
    raw.Eligible { marker, strict := true } ↔
      raw.Eligible { marker, strict := false } ∧ raw.unrecognizedLines marker = [] := by
  constructor
  · intro h
    exact ⟨⟨h.annotated, h.requests, h.named, h.inhabited, by simp⟩, h.recognized rfl⟩
  · rintro ⟨h, hlines⟩
    exact ⟨h.annotated, h.requests, h.named, h.inhabited, fun _ => hlines⟩

theorem declaresPath_lenient {source : String} :
    (build { marker, strict := false } source).DeclaresPath path ↔
      ∃ raw ∈ (scan source).enums, raw.AsksFor marker path := by
  rw [declaresPath_build]
  exact exists_congr fun raw => and_congr_right fun _ => eligible_lenient_iff

/-- In a strict build a path goes to one of the enums that ask for it and are understood. -/
theorem declaresPath_strict {source : String} :
    (build { marker, strict := true } source).DeclaresPath path ↔
      ∃ raw ∈ (scan source).enums, raw.AsksFor marker path ∧ raw.unrecognizedLines marker = [] := by
  rw [declaresPath_build]
  refine exists_congr fun raw => and_congr_right fun _ => ?_
  rw [eligible_strict_iff, and_right_comm, eligible_lenient_iff]

theorem buildEnum_strict (declared : List QualifiedPath)
    (h : raw.Annotated marker → raw.unrecognizedLines marker = []) :
    buildEnum { marker, strict := true } declared raw =
      buildEnum { marker, strict := false } declared raw := by
  unfold buildEnum
  cases hdirectives : marker.directives? raw.doc.contentLines with
  | none => rfl
  | some directives =>
    have hannotated : raw.Annotated marker := by
      by_contra hnone
      rw [Marker.directives?_eq_none_iff.2 hnone] at hdirectives
      cases hdirectives
    have hlines : directives.unrecognized = [] :=
      (@unrecognized_eq_nil_iff { marker } raw directives hdirectives).2 (h hannotated)
    have hadmission : admission { marker, strict := true } declared raw directives =
        admission { marker, strict := false } declared raw directives := by
      simp [admission, hlines]
    dsimp only
    rw [hadmission]

theorem buildEnums_strict (declared : List QualifiedPath) {raws : List RawEnum}
    (h : ∀ raw ∈ raws, raw.Annotated marker → raw.unrecognizedLines marker = []) :
    buildEnums { marker, strict := true } declared raws =
      buildEnums { marker, strict := false } declared raws := by
  induction raws generalizing declared with
  | nil => rfl
  | cons raw raws ih =>
    rw [List.forall_mem_cons] at h
    rw [buildEnums, buildEnums, buildEnum_strict declared h.1]
    dsimp only
    rw [ih _ h.2]

/-- A strict build reports the same lines that are not understood as a lenient one. It declares no other
paths, and of those it leaves out the ones that only enums with such lines ask for. If no annotated
enum has such a line there is no difference. -/
theorem build_strict (marker : Marker) (source : String) :
    let raws := (scan source).enums
    let lenient := build { marker, strict := false } source
    let strict := build { marker, strict := true } source
    unrecognizedReports strict.diagnostics = unrecognizedReports lenient.diagnostics ∧
      (∀ path, strict.DeclaresPath path → lenient.DeclaresPath path) ∧
      (∀ path, lenient.DeclaresPath path → (¬ strict.DeclaresPath path ↔
        ∀ raw ∈ raws, raw.AsksFor marker path → raw.unrecognizedLines marker ≠ [])) ∧
      ((∀ raw ∈ raws, raw.Annotated marker → raw.unrecognizedLines marker = []) →
        strict = lenient) := by
  intro raws lenient strict
  refine ⟨?_, ?_, ?_, ?_⟩
  · rw [unrecognizedReports_build, unrecognizedReports_build]
  · intro path hstrict
    obtain ⟨raw, hraw, hasks, -⟩ := declaresPath_strict.1 hstrict
    exact declaresPath_lenient.2 ⟨raw, hraw, hasks⟩
  · intro path _
    rw [declaresPath_strict]
    constructor
    · intro hmissing raw hraw hasks hlines
      exact hmissing ⟨raw, hraw, hasks, hlines⟩
    · rintro hall ⟨raw, hraw, hasks, hlines⟩
      exact hall raw hraw hasks hlines
  · intro hlines
    have hbuilt := buildEnums_strict [] hlines
    unfold strict lenient build
    dsimp only
    rw [hbuilt]

/-- Two enums of one name, of which the first has a line that is not understood. -/
def repeatedEnum : String :=
  "/// @cpp_codegen\n/// xml\n/// json_serialization\nenum e { a };\n" ++
    "/// @cpp_codegen\n/// json_serialization\nenum e { b };"

-- The first one takes the path, and where it is dropped the second one does.
example : (build {} repeatedEnum).declarations.map (·.line) = [4] ∧
    (build { strict := true } repeatedEnum).declarations.map (·.line) = [7] := by
  decide +kernel

end EnumConverter
