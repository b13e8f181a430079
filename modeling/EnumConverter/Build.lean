import EnumConverter.Annotation.Directive
import EnumConverter.Annotation.Override
import EnumConverter.Declaration
import EnumConverter.Scan.Outline

namespace EnumConverter

open Source Scan Annotation

/-- How a header is read. -/
structure BuildSettings where
  marker : Marker := .ofText defaultMarker
  /-- Whether an enum with a directive that is not understood is dropped. -/
  strict : Bool := false
deriving DecidableEq, Repr

/-- What a header holds. -/
structure Built where
  /-- The declarations, in source order. -/
  declarations : List Declaration := []
  diagnostics : List Diagnostic := []
deriving DecidableEq, Repr

namespace Built

/-- Whether a diagnostic is an error. -/
def hasErrors (built : Built) : Bool :=
  built.diagnostics.any Diagnostic.isError

end Built

/-- Why an annotated enum is dropped. -/
inductive Rejection where
  /-- A directive is not understood, and that is forbidden. -/
  | unrecognizedDirective
  | noConversion
  | noName
  | noEnumerators
  /-- An earlier declaration has the same path. -/
  | alreadyDeclared (path : QualifiedPath)
deriving DecidableEq, Repr

/-- The diagnostic that a dropped enum leaves at its definition. A directive that is not understood is
reported where it stands. -/
def Rejection.diagnostic? (raw : RawEnum) (rejection : Rejection) : Option Diagnostic :=
  let report (kind : DiagnosticKind) (message : String) : Option Diagnostic :=
    some { kind, message, position := raw.position }
  match rejection with
  | .unrecognizedDirective => none
  | .noConversion => report .emptyDirectiveSet
      ("enum '" ++ displayName raw.name ++
        "' is annotated but requests no conversion (expected one of: " ++
        Text.joined ", " (Conversion.all.map Conversion.keyword) ++ ")")
  | .noName => report .anonymousEnum "annotated enum has no name"
  | .noEnumerators => report .emptyEnum
      ("annotated enum '" ++ displayName raw.name ++ "' declares no enumerators")
  | .alreadyDeclared path => report .duplicateQualifiedName
      ("enum '" ++ path.display ++ "' is already declared; this definition is ignored")

/-- The path under which an annotated enum can be declared after those in `declared`, or the first
reason to drop it. -/
def admission (settings : BuildSettings) (declared : List QualifiedPath) (raw : RawEnum)
    (directives : Directives) : Except Rejection QualifiedPath :=
  if settings.strict && !directives.unrecognized.isEmpty then .error .unrecognizedDirective
  else if directives.conversions.isEmpty then .error .noConversion
  else match raw.name with
    | none => .error .noName
    | some name =>
      let path : QualifiedPath := ⟨raw.scope, name⟩
      if raw.enumerators.isEmpty then .error .noEnumerators
      else if declared.any path.sameNames then .error (.alreadyDeclared path)
      else .ok path

/-- The diagnostics for the directives of an enum that are not understood. -/
def directiveDiagnostics (raw : RawEnum) (directives : Directives) : List Diagnostic :=
  directives.unrecognized.map fun content =>
    { kind := .unrecognizedDirective
      message := "unrecognized directive '" ++ content.text ++ "' on enum '" ++
        displayName raw.name ++ "'"
      position := ⟨content.line, 1⟩ }

/-- An enumerator with the values that its comments give it, by default its name. -/
def enumeratorOf (raw : RawEnumerator) (overrides : Overrides) : Enumerator where
  name := raw.name
  stringValue := overrides.string.getD raw.name
  jsonValue := overrides.json.getD raw.name
  line := raw.position.line

/-- Reads the enumerators of the enum `path` behind those of the names in `seen`. Of two enumerators of
one name the first stays. -/
def buildEnumerators (path : QualifiedPath) (seen : List String) :
    List RawEnumerator → List Enumerator × List Diagnostic
  | [] => ([], [])
  | raw :: rest =>
    if raw.name ∈ seen then
      let (enumerators, diagnostics) := buildEnumerators path seen rest
      let repeated : Diagnostic :=
        { kind := .duplicateEnumerator
          message := "enumerator '" ++ raw.name ++ "' appears twice in '" ++ path.display ++
            "'; keeping the first"
          position := raw.position }
      (enumerators, repeated :: diagnostics)
    else
      let overrides := Overrides.ofFragments raw.overrideTexts
      let problems : List Diagnostic := overrides.problems.map fun problem =>
        { kind := .malformedOverride
          message := path.display ++ "::" ++ raw.name ++ ": " ++ problem.message
          position := raw.position }
      let (enumerators, diagnostics) := buildEnumerators path (seen ++ [raw.name]) rest
      (enumeratorOf raw overrides :: enumerators, problems ++ diagnostics)

/-- What one enum gives after the declarations of the paths in `declared`. An enum that is not
annotated gives nothing. -/
def buildEnum (settings : BuildSettings) (declared : List QualifiedPath) (raw : RawEnum) :
    Option Declaration × List Diagnostic :=
  match settings.marker.directives? raw.doc.contentLines with
  | none => (none, [])
  | some directives =>
    let warnings := directiveDiagnostics raw directives
    match admission settings declared raw directives with
    | .error rejection => (none, warnings ++ (rejection.diagnostic? raw).toList)
    | .ok path =>
      let (enumerators, problems) := buildEnumerators path [] raw.enumerators
      let declaration : Declaration :=
        { path
          requested := directives.conversions
          enumerators
          isScoped := raw.isScoped
          line := raw.position.line }
      (some declaration, warnings ++ problems)

/-- What a list of enums gives after the declarations of the paths in `declared`, in order. -/
def buildEnums (settings : BuildSettings) (declared : List QualifiedPath) : List RawEnum → Built
  | [] => {}
  | raw :: rest =>
    let (declaration, diagnostics) := buildEnum settings declared raw
    let tail := buildEnums settings (declared ++ declaration.toList.map (·.path)) rest
    ⟨declaration.toList ++ tail.declarations, diagnostics ++ tail.diagnostics⟩

/-- Diagnostics in the order of their positions. Those of one position stay in order. -/
def sortDiagnostics (diagnostics : List Diagnostic) : List Diagnostic :=
  diagnostics.mergeSort fun a b => a.position.notAfter b.position

/-- What a source text holds. -/
def build (settings : BuildSettings) (source : String) : Built :=
  let outline := scan source
  let built := buildEnums settings [] outline.enums
  { built with diagnostics := sortDiagnostics (outline.diagnostics ++ built.diagnostics) }

/-- What the source text of the header at `file` holds. -/
def buildFile (settings : BuildSettings) (file source : String) : Built :=
  let built := build settings source
  { built with diagnostics := built.diagnostics.map ({ · with file := some file }) }

end EnumConverter
