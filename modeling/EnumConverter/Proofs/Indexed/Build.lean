import EnumConverter.Build
import EnumConverter.Proofs.Indexed.Outline
import EnumConverter.Proofs.Indexed.Override

namespace EnumConverter

open Source Scan Annotation

/-- The directives of a documentation block, by index. -/
def directivesAt (marker : Marker) (lines : List ContentLine) : Checked (Option Directives) :=
  match lines.findIdx? marker.opens with
  | none => .ok none
  | some index => do
    let opening ← Checked.item lines index
    let below ← Checked.slice lines (index + 1) lines.length
    .ok (some ((below.filter (!marker.opens ·)).foldl .add { markerLine := opening.line }))

theorem directives?_eq_dropWhile (marker : Marker) (lines : List ContentLine) :
    marker.directives? lines = match lines.dropWhile (!marker.opens ·) with
      | [] => none
      | opening :: below =>
        some ((below.filter (!marker.opens ·)).foldl .add { markerLine := opening.line }) := by
  induction lines with
  | nil => rfl
  | cons content rest ih =>
    by_cases hopens : marker.opens content
    · simp [Marker.directives?, hopens]
    · simp [Marker.directives?, hopens, ih]

theorem directivesAt_eq (marker : Marker) (lines : List ContentLine) :
    directivesAt marker lines = .ok (marker.directives? lines) := by
  have hrest : lines.dropWhile (!marker.opens ·) <:+ lines := List.dropWhile_suffix _
  rw [directivesAt, findIdx?_eq_cursor?, directives?_eq_dropWhile]
  cases hdrop : lines.dropWhile (!marker.opens ·) with
  | nil => rfl
  | cons opening below =>
    rw [hdrop] at hrest
    simp [item_offset hrest, slice_behind hrest]

/-- The enumerators of the enum `path` behind those of the names in `seen`, by index. -/
def buildEnumeratorsAt (path : QualifiedPath) (seen : List String) :
    List RawEnumerator → Checked (List Enumerator × List Diagnostic)
  | [] => .ok ([], [])
  | raw :: rest =>
    if raw.name ∈ seen then do
      let (enumerators, diagnostics) ← buildEnumeratorsAt path seen rest
      let repeated : Diagnostic :=
        { kind := .duplicateEnumerator
          message := "enumerator '" ++ raw.name ++ "' appears twice in '" ++ path.display ++
            "'; keeping the first"
          position := raw.position }
      .ok (enumerators, repeated :: diagnostics)
    else do
      let overrides ← overridesOfAt raw.overrideTexts
      let problems : List Diagnostic := overrides.problems.map fun problem =>
        { kind := .malformedOverride
          message := path.display ++ "::" ++ raw.name ++ ": " ++ problem.message
          position := raw.position }
      let (enumerators, diagnostics) ← buildEnumeratorsAt path (seen ++ [raw.name]) rest
      .ok (enumeratorOf raw overrides :: enumerators, problems ++ diagnostics)

/-- What one enum gives after the declarations of the paths in `declared`, by index. -/
def buildEnumAt (settings : BuildSettings) (declared : List QualifiedPath) (raw : RawEnum) :
    Checked (Option Declaration × List Diagnostic) := do
  match ← directivesAt settings.marker raw.doc.contentLines with
  | none => .ok (none, [])
  | some directives =>
    let warnings := directiveDiagnostics raw directives
    match admission settings declared raw directives with
    | .error rejection => .ok (none, warnings ++ (rejection.diagnostic? raw).toList)
    | .ok path => do
      let (enumerators, problems) ← buildEnumeratorsAt path [] raw.enumerators
      let declaration : Declaration :=
        { path
          requested := directives.conversions
          enumerators
          isScoped := raw.isScoped
          line := raw.position.line }
      .ok (some declaration, warnings ++ problems)

/-- What a list of enums gives after the declarations of the paths in `declared`, by index. -/
def buildEnumsAt (settings : BuildSettings) (declared : List QualifiedPath) :
    List RawEnum → Checked Built
  | [] => .ok {}
  | raw :: rest => do
    let (declaration, diagnostics) ← buildEnumAt settings declared raw
    let tail ← buildEnumsAt settings (declared ++ declaration.toList.map (·.path)) rest
    .ok ⟨declaration.toList ++ tail.declarations, diagnostics ++ tail.diagnostics⟩

/-- What a source text holds, by index. -/
def buildAt (settings : BuildSettings) (source : String) : Checked Built := do
  let outline ← scanTextAt source
  let built ← buildEnumsAt settings [] outline.enums
  .ok { built with diagnostics := sortDiagnostics (outline.diagnostics ++ built.diagnostics) }

theorem buildEnumeratorsAt_eq (path : QualifiedPath) (seen : List String) (raws : List RawEnumerator) :
    buildEnumeratorsAt path seen raws = .ok (buildEnumerators path seen raws) := by
  induction raws generalizing seen with
  | nil => rfl
  | cons raw rest ih =>
    rw [buildEnumeratorsAt, buildEnumerators]
    split
    · rw [ih]
      rfl
    · rw [overridesOfAt_eq, Checked.ok_bind, ih]
      rfl

theorem buildEnumAt_eq (settings : BuildSettings) (declared : List QualifiedPath) (raw : RawEnum) :
    buildEnumAt settings declared raw = .ok (buildEnum settings declared raw) := by
  rw [buildEnumAt, directivesAt_eq, Checked.ok_bind, buildEnum]
  cases settings.marker.directives? raw.doc.contentLines with
  | none => rfl
  | some directives =>
    cases hadmission : admission settings declared raw directives with
    | error rejection => simp only [hadmission]
    | ok path => simp only [hadmission, buildEnumeratorsAt_eq, Checked.ok_bind]

theorem buildEnumsAt_eq (settings : BuildSettings) (declared : List QualifiedPath)
    (raws : List RawEnum) :
    buildEnumsAt settings declared raws = .ok (buildEnums settings declared raws) := by
  induction raws generalizing declared with
  | nil => rfl
  | cons raw rest ih =>
    simp only [buildEnumsAt, buildEnumAt_eq, Checked.ok_bind, ih, buildEnums]

/-- Every header can be read, with every marker, strict or not: no index is out of range, no count
falls below zero, no loop stands still, and the result is what the header holds. -/
theorem buildAt_eq_build (settings : BuildSettings) (source : String) :
    buildAt settings source = .ok (build settings source) := by
  rw [buildAt, scanTextAt_eq, Checked.ok_bind, buildEnumsAt_eq]
  rfl

end EnumConverter
