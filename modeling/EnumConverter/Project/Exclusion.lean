import EnumConverter.Project.IgnoreFile
import EnumConverter.Project.Repository

namespace EnumConverter

open Text

/-- Why a walk fails. -/
inductive WalkFault where
  /-- An ignore file is not valid. -/
  | ignoreFile (path : Path) (fault : IgnoreFault)
  /-- A file that leads to an ignore file cannot be read. -/
  | unreadable (path : Path) (fault : FileFault)
  /-- The path of a directory has become too long to enter it. -/
  | tooLong (path : Path)
deriving DecidableEq, Repr

namespace WalkFault

/-- The message for a fault, without what the system says about it. -/
def message : WalkFault → String
  | .ignoreFile path fault => fault.message path
  | .unreadable path fault => path.text ++ fault.detail
  | .tooLong path => path.text ++ ": IO error for operation on " ++ path.text

end WalkFault

/-- The rules of one directory. -/
structure DirectoryRules where
  /-- The rules that always count. -/
  general : IgnoreFile := {}
  /-- The rules for version control. -/
  versioned : IgnoreFile := {}
  /-- The rules for version control that are not in the directory itself. -/
  excluded : IgnoreFile := {}
  isRepository : Bool := false
deriving Inhabited, Repr

/-- The rules that a walk goes by. -/
structure RuleBook where
  /-- The directories that make a difference, with their rules. -/
  directories : List (Location × DirectoryRules)
  /-- The rules for all repositories, which are not in any of them. -/
  everywhere : IgnoreFile := {}
  /-- The working directory, from which the rules for all repositories see an item. -/
  current : Path
deriving Repr

namespace FileTree

/-- The ignore file of a name in a directory, with its path. -/
def ignoreFile? (tree : FileTree) (directory : Location) (name : String) : Option (Path × Item) :=
  (tree.item? (directory ++ [name])).map fun item => (pathTo (directory ++ [name]), item)

/-- What an ignore file says. One that is not there says nothing. -/
def rulesIn (file : Option (Path × Item)) : IgnoreFile :=
  match file with
  | some (_, item) => .ofLines item.lines
  | none => {}

/-- What is wrong with an ignore file. -/
def faultsIn (file : Option (Path × Item)) : List WalkFault :=
  match file with
  | some (path, item) => (IgnoreFile.ofLines item.lines).faults.map (.ignoreFile path)
  | none => []

/-- The rules of a directory. -/
def rulesOf (tree : FileTree) (directory : Location) : DirectoryRules where
  general := rulesIn (tree.ignoreFile? directory ".ignore")
  versioned := rulesIn (tree.ignoreFile? directory ".gitignore")
  excluded := match tree.excludeFile directory with
    | .ok file => rulesIn file
    | .error _ => {}
  isRepository := tree.isRepository directory

/-- What is wrong with the ignore files of a directory. Those for version control count only if they are
respected. -/
def ruleFaults (tree : FileTree) (respectGitignore : Bool) (directory : Location) : List WalkFault :=
  faultsIn (tree.ignoreFile? directory ".ignore") ++
    if !respectGitignore then []
    else faultsIn (tree.ignoreFile? directory ".gitignore") ++ match tree.excludeFile directory with
      | .ok file => faultsIn file
      | .error (path, fault) => [.unreadable path fault]

/-- The names of items that make a difference to the directory around them. -/
def ruleNames : List String := [".ignore", ".gitignore", ".git", ".jj"]

/-- The rules of all directories that have some, and those of a file for all repositories. -/
def ruleBook (tree : FileTree) (everywhere : Option Path) : RuleBook where
  directories :=
    let directories := tree.items.filterMap fun (place, _) =>
      if place.getLast?.any ruleNames.contains then some place.dropLast else none
    directories.eraseDups.map fun directory => (directory, tree.rulesOf directory)
  everywhere := rulesIn (everywhere.bind fun path => (tree.find? path).map fun item => (path, item))
  current := pathTo tree.current

end FileTree

/-- A text without the dot and the slash at its start. -/
def dropDotSlash (cs : List Char) : List Char :=
  (dropStart? ['.', '/'] cs).getD cs

/-- The path of an item as the rules of a directory see it, from the two paths as they are written. It
is the rest behind the path of the directory, if the one starts with the other when a dot and a slash
are dropped from the directory and, up to two times, from the item. Otherwise it is the path itself. -/
def seenFrom (directory item : Path) : List Char :=
  let base := dropDotSlash directory.text.toList
  let path := dropDotSlash (dropDotSlash item.text.toList)
  if Path.same ⟨String.ofList base⟩ ⟨"."⟩ || !path.contains '/' then path
  else match dropStart? base path with
    | some rest => (dropStart? ['/'] rest).getD rest
    | none => path

/-- The directories around a location, the innermost first. -/
def around (place : Location) : List Location :=
  match place with
  | [] => []
  | first :: rest => (around rest).map (first :: ·) ++ [[]]

/-- A list up to the first member that passes a test, with that member. -/
def upTo {α : Type} (test : α → Bool) : List α → List α
  | [] => []
  | a :: rest => if test a then [a] else a :: upTo test rest

/-- What follows the names of a directory in a location inside of it, or the location of a file itself. -/
def below? (root place : Location) : Option (List String) :=
  if root.isPrefixOf place then some (place.drop root.length) else none

/-- Where a walk through a directory and everything below it starts. -/
structure WalkStart where
  place : Location
  /-- The path of the directory as it is written. -/
  path : Path
deriving DecidableEq, Repr

namespace WalkStart

/-- The path of an item behind the start as the rules of a directory around it see it. Below the start,
paths are seen as the walk writes them. -/
def seenPath (start : WalkStart) (names : List String) (directory : Location) : List Char :=
  if start.place.length ≤ directory.length then
    seenFrom (start.path.behind (names.take (directory.length - start.place.length)))
      (start.path.behind names)
  else (joined "/" ((start.place ++ names).drop directory.length)).toList

/-- The rules of the directories around an item behind the start, the innermost first, each with the
path of the item as they see it. -/
def levels (start : WalkStart) (book : RuleBook) (names : List String) :
    List (DirectoryRules × List UInt8) :=
  (around (start.place ++ names)).map fun directory =>
    ((book.directories.lookup directory).getD {}, bytesOf (start.seenPath names directory))

/-- Whether ignore files exclude an item behind the start. -/
def isIgnored (start : WalkStart) (book : RuleBook) (respectGitignore : Bool) (names : List String)
    (isDirectory : Bool) : Bool :=
  let levels := start.levels book names
  let inRepository := respectGitignore && levels.any (·.1.isRepository)
  let repository := if inRepository then upTo (·.1.isRepository) levels else []
  let decide? (levels : List (DirectoryRules × List UInt8))
      (file : DirectoryRules → IgnoreFile) : Option Verdict :=
    levels.findSome? fun (level, path) => (file level).verdict? path isDirectory
  let everywhere := if inRepository then
      book.everywhere.verdict? (bytesOf (seenFrom book.current (start.path.behind names))) isDirectory
    else none
  let verdict := decide? levels (·.general) <|> decide? repository (·.versioned) <|>
    decide? repository (·.excluded) <|> everywhere
  verdict = some .ignore

/-- Whether a walk reaches an item: neither the item nor one of the directories on the way is
excluded. -/
def reaches (start : WalkStart) (book : RuleBook) (respectGitignore : Bool) (names : List String)
    (isDirectory : Bool) : Bool :=
  (List.range names.length).all fun depth =>
    !start.isIgnored book respectGitignore (names.take (depth + 1))
      (isDirectory || depth + 1 < names.length)

/-- Why a walk cannot start: faults in the ignore files of the directories around it, the outermost
first. A walk that starts with a file does not care. -/
def startFaults (start : WalkStart) (tree : FileTree) (respectGitignore : Bool) : List WalkFault :=
  if tree.item? start.place = some .directory then
    (around start.place).reverse.flatMap (tree.ruleFaults respectGitignore)
  else []

/-- The directory that a walk reaches but cannot enter, because its path has become too long. -/
def entryFault? (start : WalkStart) (tree : FileTree) (book : RuleBook) (respectGitignore : Bool) :
    Option WalkFault :=
  tree.items.findSome? fun (place, item) => do
    let names ← below? start.place place
    let path := start.path.behind names
    if item = .directory && path.fault?.isSome && start.reaches book respectGitignore names true then
      some (.tooLong path)
    else none

end WalkStart

end EnumConverter
