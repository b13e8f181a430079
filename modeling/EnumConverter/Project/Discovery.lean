import EnumConverter.Generate
import EnumConverter.Settings
import EnumConverter.Project.Filter
import EnumConverter.Project.Walk

namespace EnumConverter

open Text

/-- Why headers could not be found. -/
inductive ScanError where
  | directoryNotFound (root : Path)
  | noSourceFiles (root : Path)
  | invalidPattern (pattern : String) (fault : FilterFault)
  /-- A header is no text. -/
  | notText (path : Path)
  | walk (faults : List WalkFault)
deriving DecidableEq, Repr

/-- The message for an error, without what the system says about it. -/
def ScanError.message : ScanError → String
  | .directoryNotFound root => "Directory not found: " ++ root.text
  | .noSourceFiles root => "No header files found in: " ++ root.text
  | .invalidPattern pattern fault =>
    "Invalid filter pattern '" ++ pattern ++ "': " ++ fault.message
  | .notText path => "IO error scanning " ++ path.text ++ FileFault.notText.detail
  | .walk faults => "Walk error: " ++ joined "\n" (faults.map (·.message))

/-- Where and how headers are looked for. -/
structure Search where
  root : Path := ⟨"."⟩
  settings : ScanSettings := {}
  filter : Option Filter := none
deriving DecidableEq, Repr

namespace Search

/-- Whether the file at a path is wanted. -/
def wants (search : Search) (path : Path) : Bool :=
  search.settings.accepts path && search.filter.all (·.fits (path.relativeTo search.root).text)

/-- A wanted file with its text. -/
def readFile (search : Search) (tree : FileTree) (path : Path) : Except ScanError SourceFile :=
  match tree.find? path with
  | some (.text content) => .ok ⟨path, path.relativeTo search.root, content⟩
  | _ => .error (.notText path)

/-- What is made of something that a walk comes across. Only files that are wanted are read. -/
def visit (search : Search) (tree : FileTree) :
    Except (List WalkFault) Path → Except ScanError (Option SourceFile)
  | .error faults => .error (.walk faults)
  | .ok path =>
    if tree.isFile path && search.wants path then (search.readFile tree path).map some else .ok none

/-- The headers that a search finds on a walk, in the order of their paths. There may be none. -/
def findAll (search : Search) (walk : Walk) (tree : FileTree) : Except ScanError (List SourceFile) :=
  if !tree.contains search.root then .error (.directoryNotFound search.root)
  else do
    let visited ← (walk tree search.root search.settings.respectGitignore).mapM (search.visit tree)
    return (visited.filterMap id).mergeSort fun a b => a.relativePath.notAfter b.relativePath

/-- The headers that a search finds on a walk, of which there has to be one. -/
def find (search : Search) (walk : Walk) (tree : FileTree) : Except ScanError (List SourceFile) := do
  let found ← search.findAll walk tree
  if found.isEmpty then .error (.noSourceFiles search.root) else return found

/-- The search in a directory with a filter as it is written. -/
def ofText (root : Path) (settings : ScanSettings) (filter : Option String) :
    Except ScanError Search :=
  match filter with
  | none => .ok { root, settings }
  | some text =>
    match Filter.parse text with
    | .ok filter => .ok { root, settings, filter := some filter }
    | .error fault => .error (.invalidPattern text fault)

end Search

end EnumConverter
