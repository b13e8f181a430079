import EnumConverter.Emit.FilePair
import EnumConverter.Emit.Registry
import EnumConverter.Settings

namespace EnumConverter

open Emit

/-- A header that was found. -/
structure SourceFile where
  path : Path
  /-- The path seen from the directory in which headers are looked for. -/
  relativePath : Path
  content : String
deriving DecidableEq, Repr

/-- What a header holds. -/
structure FileAnalysis where
  relativePath : Path
  declarations : List Declaration
  diagnostics : List Diagnostic
deriving DecidableEq, Repr

/-- What all headers hold, in the order of their paths. -/
structure Analysis where
  files : List FileAnalysis := []
deriving DecidableEq, Repr

/-- What one header holds. -/
def analyzeFile (settings : BuildSettings) (file : SourceFile) : FileAnalysis :=
  let built := buildFile settings file.relativePath.text file.content
  ⟨file.relativePath, built.declarations, built.diagnostics⟩

/-- What headers hold. -/
def analyze (settings : Settings) (files : List SourceFile) : Analysis where
  files := (files.map (analyzeFile settings.annotation.build)).mergeSort
    fun a b => a.relativePath.notAfter b.relativePath

namespace Analysis

/-- All declarations, each with the path of its header. -/
def declarations (analysis : Analysis) : List (Path × Declaration) :=
  analysis.files.flatMap fun file => file.declarations.map fun declaration =>
    (file.relativePath, declaration)

/-- All diagnostics. -/
def diagnostics (analysis : Analysis) : List Diagnostic :=
  analysis.files.flatMap (·.diagnostics)

/-- The number of diagnostics of a severity. -/
def count (analysis : Analysis) (severity : Severity) : Nat :=
  analysis.diagnostics.countP (·.severity = severity)

end Analysis

/-- Which diagnostics make a run fail. -/
structure DiagnosticPolicy where
  /-- Errors do. -/
  strict : Bool := false
  /-- All diagnostics do. -/
  denyWarnings : Bool := false
deriving DecidableEq, Repr

/-- The number of diagnostics that make a run fail. -/
def DiagnosticPolicy.failures (policy : DiagnosticPolicy) (analysis : Analysis) : Nat :=
  if policy.denyWarnings then analysis.diagnostics.length
  else if policy.strict then analysis.count .error
  else 0

/-- A file to be written, with its path seen from the output directory. -/
structure GeneratedFile where
  path : Path
  content : String
deriving DecidableEq, Repr

/-- Several enumerators with one value. Reading the value gives the first of them. -/
structure SharedValue where
  declaration : QualifiedPath
  kind : Conversion
  value : String
  enumerators : List String
deriving DecidableEq, Repr

/-- The warning about a shared value. -/
def SharedValue.message (_ : SharedValue) : String :=
  "several enumerators share a value; parsing resolves it to the first"

/-- The values that enumerators of an enum share, for the conversions that it requests. -/
def sharedValues (declaration : Declaration) : List SharedValue :=
  declaration.requested.toList.flatMap fun kind =>
    (declaration.duplicateValues kind).map fun (value, enumerators) =>
      ⟨declaration.path, kind, value, enumerators⟩

/-- Why files could not be generated. -/
inductive GenerateError where
  /-- Two declarations need a file of the same path. -/
  | collision (path : Path) (first second : QualifiedPath)
  | emit (declaration : QualifiedPath) (error : EmitError)
deriving DecidableEq, Repr

/-- The message for an error. -/
def GenerateError.message : GenerateError → String
  | .collision path first second =>
    "'" ++ first.display ++ "' and '" ++ second.display ++ "' both generate " ++ path.text
  | .emit declaration error =>
    "Generation error for '" ++ declaration.display ++ "': " ++ error.message

/-- What came out of generating files. -/
structure Generation where
  /-- The shared values that were met, up to the declaration at fault if there is one. -/
  warnings : List SharedValue
  /-- The number of declarations that files were generated for. -/
  declarations : Nat
  /-- For each declaration its header and its source file. -/
  files : Except GenerateError (List GeneratedFile)

/-- The declarations for which a path is taken. -/
abbrev Owners := List (Path × QualifiedPath)

/-- Takes a path for a declaration, unless it is taken already. -/
def takePath (owners : Owners) (declaration : QualifiedPath) (path : Path) :
    Except GenerateError Owners :=
  match owners.find? (·.1.same path) with
  | some (_, first) => .error (.collision path first declaration)
  | none => .ok ((path, declaration) :: owners)

/-- The two files for a declaration of the header at `path`, and the paths that are taken then. -/
def generatePair (snake : String → String) (settings : OutputSettings) (registry : Registry)
    (owners : Owners) (path : Path) (declaration : Declaration) :
    Except GenerateError (FilePair × Owners) :=
  match registry.emit settings.indent declaration with
  | .error error => .error (.emit declaration.path error)
  | .ok converters => do
    let pair := render snake settings.toLayout path.includeText declaration converters
    let owners ← takePath owners declaration.path pair.headerPath
    let owners ← takePath owners declaration.path pair.sourcePath
    return (pair, owners)

/-- Generates the files for declarations after those in `owners`. -/
def generateFrom (snake : String → String) (settings : OutputSettings) (registry : Registry)
    (owners : Owners) : List (Path × Declaration) → Generation
  | [] => ⟨[], 0, .ok []⟩
  | (path, declaration) :: rest =>
    let warnings := sharedValues declaration
    match generatePair snake settings registry owners path declaration with
    | .error error => ⟨warnings, 0, .error error⟩
    | .ok (pair, owners) =>
      let tail := generateFrom snake settings registry owners rest
      ⟨warnings ++ tail.warnings, tail.declarations + 1, tail.files.map fun files =>
        ⟨pair.headerPath, pair.header⟩ :: ⟨pair.sourcePath, pair.source⟩ :: files⟩

/-- Generates the files for everything that headers hold. -/
def generate (snake : String → String) (settings : OutputSettings) (registry : Registry)
    (analysis : Analysis) : Generation :=
  generateFrom snake settings registry [] analysis.declarations

end EnumConverter
