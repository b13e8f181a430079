import EnumConverter.Project.Exclusion

namespace EnumConverter

/-- A way to walk through a directory. From the files that are there, the path at which the walk starts,
and whether it leaves out what version control ignores, it gives the paths that it comes across and the
faults that it meets, in order. -/
abbrev Walk := FileTree → Path → Bool → List (Except (List WalkFault) Path)

/-- Whether names come no later than others, compared one by one. -/
def namesNotAfter : List String → List String → Bool
  | [], _ => true
  | _ :: _, [] => false
  | a :: as, b :: bs => if a = b then namesNotAfter as bs else a < b

/-- The names behind a location of the files at or below it, in increasing order. -/
def FileTree.filesBelow (tree : FileTree) (root : Location) : List (List String) :=
  let files := (tree.items.map (·.1)).filter tree.hasFile
  (files.filterMap (below? root)).eraseDups.mergeSort namesNotAfter

/-- Whether a path is a lone hyphen. As the start of a walk it stands for the standard input, in which
there are no files. -/
def Path.isStandardInput (path : Path) : Bool :=
  path.same ⟨"-"⟩

namespace WalkStart

/-- The names behind the start of the files that a walk reaches. -/
def files (start : WalkStart) (tree : FileTree) (book : RuleBook) (respectGitignore : Bool) :
    List (List String) :=
  (tree.filesBelow start.place).filter fun names =>
    start.reaches book respectGitignore names false

/-- What a walk meets that goes by some rules: the faults that keep it from starting, a directory that
it cannot enter, or else all files that it reaches. -/
def entries (start : WalkStart) (tree : FileTree) (book : RuleBook) (respectGitignore : Bool) :
    List (Except (List WalkFault) Path) :=
  match start.startFaults tree respectGitignore with
  | fault :: faults => [.error (fault :: faults)]
  | [] =>
    match start.entryFault? tree book respectGitignore with
    | some fault => [.error [fault]]
    | none => (start.files tree book respectGitignore).map fun names => .ok (start.path.behind names)

end WalkStart

/-- The walk that comes across all files that ignore files do not exclude. Besides the ignore files of
directories there can be one for all repositories. -/
def ignoreWalk (everywhere : Option Path) : Walk := fun tree path respectGitignore =>
  if path.isStandardInput then []
  else match tree.locate path with
    | .error _ => []
    | .ok place =>
      WalkStart.entries ⟨place, path⟩ tree (tree.ruleBook everywhere) respectGitignore

end EnumConverter
