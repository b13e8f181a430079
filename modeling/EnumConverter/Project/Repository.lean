import EnumConverter.Project.FileTree

namespace EnumConverter

open Text

namespace FileTree

/-- Whether a directory is the top of a repository. -/
def isRepository (tree : FileTree) (directory : Location) : Bool :=
  [".git", ".jj"].any fun mark => (tree.item? (directory ++ [mark])).isSome

/-- The first line of the item at a path. -/
def firstLine (path : Path) (item : Item) : Except (Path × FileFault) (Option (List Char)) :=
  if item.startsWithText then .ok item.lines.head? else .error (path, item.readFault)

/-- The directory that the mark of a working tree names behind a label on its first line. -/
def ownDirectory (path : Path) (mark : Item) : Except (Path × FileFault) (Option Path) := do
  let some line ← firstLine path mark | return none
  return (dropStart? "gitdir: ".toList line).map fun own => ⟨String.ofList own⟩

/-- The shared directory that the mark of a working tree leads to. The directory that the mark names has
a file, whose first line is the path of the shared directory. It is seen from there if it starts with a
dot. -/
def sharedDirectory (tree : FileTree) (path : Path) (mark : Item) :
    Except (Path × FileFault) (Option Path) := do
  let some own ← ownDirectory path mark | return none
  let link := own.join ⟨"commondir"⟩
  let some item := tree.find? link | return none
  let some shared ← firstLine link item | return none
  let path : Path := ⟨String.ofList shared⟩
  return some (if shared.head? = some '.' then own.join path else path)

/-- The ignore file of a repository that is none of its own files, with its path. -/
def excludeFile (tree : FileTree) (directory : Location) :
    Except (Path × FileFault) (Option (Path × Item)) := do
  let place := directory ++ [".git"]
  match tree.item? place with
  | none => return none
  | some .directory =>
    let file := place ++ ["info", "exclude"]
    return (tree.item? file).map fun item => (pathTo file, item)
  | some mark =>
    let some shared ← tree.sharedDirectory (pathTo place) mark | return none
    let file := shared.join ⟨"info/exclude"⟩
    return (tree.find? file).map fun item => (file, item)

end FileTree

end EnumConverter
