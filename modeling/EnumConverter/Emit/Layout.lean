import EnumConverter.Declaration
import EnumConverter.Path

namespace EnumConverter.Emit

/-- What a generated file is named after. -/
inductive Naming where
  /-- The name of the enum. -/
  | short
  /-- The whole path of the enum. -/
  | qualified
deriving DecidableEq, Repr, Inhabited

/-- The word for a way to name files. -/
def Naming.word : Naming → String
  | .short => "short"
  | .qualified => "qualified"

/-- The way to name files that a word stands for. -/
def Naming.ofWord? (word : String) : Option Naming :=
  [Naming.short, .qualified].find? (·.word = word)

/-- How the names of generated files are spelled. -/
inductive FileCase where
  | preserve
  | snake
deriving DecidableEq, Repr, Inhabited

/-- The word for a spelling. -/
def FileCase.word : FileCase → String
  | .preserve => "preserve"
  | .snake => "snake"

/-- The spelling that a word stands for. -/
def FileCase.ofWord? (word : String) : Option FileCase :=
  [FileCase.preserve, .snake].find? (·.word = word)

/-- How generated files are called. -/
structure Layout where
  /-- The directory of the files, seen from the output directory and in include lines. -/
  includeDir : String := "converters"
  /-- The extension of headers, without the dot. -/
  headerExtension : String := "hpp"
  /-- The extension of source files, without the dot. -/
  sourceExtension : String := "cpp"
  naming : Naming := .short
  fileCase : FileCase := .preserve
deriving DecidableEq, Repr

/-- A text without the slashes at both ends. -/
def trimSlashes (text : String) : String :=
  String.ofList (((text.toList.dropWhile (· = '/')).reverse.dropWhile (· = '/')).reverse)

namespace Layout

/-- The directory of the files. It is relative, whatever slashes the setting has around it. -/
def directory (layout : Layout) : String :=
  trimSlashes layout.includeDir

section Files

-- How names are put into snake case is left open.
variable (snake : String → String)

/-- The name of the files for an enum, without extension. -/
def stem (layout : Layout) (declaration : Declaration) : String :=
  let name := match layout.naming with
    | .short => declaration.name
    | .qualified => declaration.path.joinedBy "_"
  match layout.fileCase with
  | .preserve => name
  | .snake => snake name

/-- The file name with an extension for an enum. -/
def fileName (layout : Layout) (declaration : Declaration) (extension : String) : String :=
  layout.stem snake declaration ++ "." ++ extension

/-- The path of the header, seen from the output directory. -/
def headerPath (layout : Layout) (declaration : Declaration) : Path :=
  (Path.mk layout.directory).join ⟨layout.fileName snake declaration layout.headerExtension⟩

/-- The path of the source file, seen from the output directory. -/
def sourcePath (layout : Layout) (declaration : Declaration) : Path :=
  (Path.mk layout.directory).join ⟨layout.fileName snake declaration layout.sourceExtension⟩

/-- The header as the source file includes it. -/
def includeText (layout : Layout) (declaration : Declaration) : String :=
  let file := layout.fileName snake declaration layout.headerExtension
  if layout.directory = "" then file else layout.directory ++ "/" ++ file

end Files

end Layout

end EnumConverter.Emit
