import EnumConverter.Generate
import EnumConverter.Project.FileTree

namespace EnumConverter

/-- Why a file could not be written. -/
inductive WriteError where
  | createDirectory (path : Path) (fault : FileFault)
  | writeFile (path : Path) (fault : FileFault)
  /-- Something is there that cannot be compared with the new content. -/
  | readExisting (path : Path) (fault : FileFault)
deriving DecidableEq, Repr

namespace WriteError

/-- The message for an error, without what the system says about it. -/
def message : WriteError → String
  | .createDirectory path fault => "Failed to create directory " ++ path.text ++ fault.detail
  | .writeFile path fault => "Failed to write file " ++ path.text ++ fault.detail
  | .readExisting path fault => "Failed to read existing file " ++ path.text ++ fault.detail

/-- What is wrong with the file. -/
def fault : WriteError → FileFault
  | .createDirectory _ fault | .writeFile _ fault | .readExisting _ fault => fault

end WriteError

/-- How a file compares with its generated content. -/
inductive FileStatus where
  | fresh (path : Path)
  | stale (path : Path)
  | missing (path : Path)
deriving DecidableEq, Repr

namespace FileStatus

/-- The path of the file. -/
def path : FileStatus → Path
  | .fresh path | .stale path | .missing path => path

/-- Whether the file is up to date. -/
def isFresh : FileStatus → Bool
  | .fresh _ => true
  | _ => false

end FileStatus

/-- What was done with a file. -/
inductive WriteResult where
  | written (path : Path) (bytes : Nat)
  | unchanged (path : Path)
  /-- Nothing was done, because it was asked for a preview only. -/
  | preview (path : Path) (content : String)
deriving DecidableEq, Repr

namespace WriteResult

/-- The path of the file. -/
def path : WriteResult → Path
  | .written path _ | .unchanged path | .preview path _ => path

/-- The number of bytes that were written. -/
def bytes : WriteResult → Nat
  | .written _ bytes => bytes
  | _ => 0

/-- Whether the file was written. -/
def wasWritten : WriteResult → Bool
  | .written _ _ => true
  | _ => false

end WriteResult

/-- Writes files below a directory. -/
structure Writer where
  root : Path
  /-- Whether nothing is written, but only shown. -/
  dryRun : Bool := false
deriving DecidableEq, Repr

namespace Writer

/-- Where a generated file goes. -/
def target (writer : Writer) (file : GeneratedFile) : Path :=
  writer.root.join file.path

/-- How the file that is there compares with a generated one. -/
def status (writer : Writer) (tree : FileTree) (file : GeneratedFile) :
    Except WriteError FileStatus :=
  let path := writer.target file
  match tree.find? path with
  | none => .ok (.missing path)
  | some (.text content) => .ok (if content = file.content then .fresh path else .stale path)
  | some item => .error (.readExisting path item.readFault)

/-- How all files compare with generated ones, in order. -/
def check (writer : Writer) (tree : FileTree) (files : List GeneratedFile) :
    Except WriteError (List FileStatus) :=
  files.mapM (writer.status tree)

/-- Makes sure that the directory of a path is there. -/
def prepare (tree : FileTree) (path : Path) : FileTree × Except WriteError Unit :=
  match path.parent? with
  | none => (tree, .ok ())
  | some directory =>
    if tree.contains directory then (tree, .ok ())
    else match tree.makeDirectories directory with
      | (made, true) => (made, .ok ())
      | (made, false) => (made, .error (.createDirectory directory (.ofPath directory)))

/-- Puts a file in place, with its directory. -/
def store (tree : FileTree) (path : Path) (content : String) :
    FileTree × Except WriteError WriteResult :=
  match prepare tree path with
  | (prepared, .error error) => (prepared, .error error)
  | (prepared, .ok ()) =>
    match prepared.writeFile path (.text content) with
    | .error _ => (prepared, .error (.writeFile path (.ofPath path)))
    | .ok stored => (stored, .ok (.written path content.utf8ByteSize))

/-- Writes one file. -/
def write (writer : Writer) (tree : FileTree) (file : GeneratedFile) :
    FileTree × Except WriteError WriteResult :=
  let path := writer.target file
  if writer.dryRun then (tree, .ok (.preview path file.content))
  else match writer.status tree file with
    | .error error => (tree, .error error)
    | .ok (.fresh _) => (tree, .ok (.unchanged path))
    | .ok _ => store tree path file.content

/-- Writes files in order up to the first failure. -/
def writeAll (writer : Writer) (tree : FileTree) :
    List GeneratedFile → FileTree × Except WriteError (List WriteResult)
  | [] => (tree, .ok [])
  | file :: rest =>
    match writer.write tree file with
    | (after, .error error) => (after, .error error)
    | (after, .ok result) =>
      let (last, results) := writer.writeAll after rest
      (last, results.map (result :: ·))

end Writer

end EnumConverter
