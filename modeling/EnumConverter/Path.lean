import EnumConverter.Text.Line

namespace EnumConverter

open Text

/-- One step of a path. -/
inductive Component where
  /-- The leading slash of an absolute path. -/
  | root
  /-- A dot at the start of a path. -/
  | current
  | parent
  | name (text : String)
deriving DecidableEq, Repr, Inhabited

namespace Component

/-- A component as it is written. -/
def text : Component → String
  | .root => "/"
  | .current => "."
  | .parent => ".."
  | .name text => text

/-- The component that a written one stands for. -/
def ofText (text : String) : Component :=
  if text = ".." then .parent else if text = "." then .current else .name text

/-- Roots come first, then dots, then steps upwards, then names. -/
def rank : Component → Nat
  | .root => 0
  | .current => 1
  | .parent => 2
  | .name _ => 3

/-- Whether a component comes before another one. Names are ordered by their code points. -/
def before : Component → Component → Bool
  | .name a, .name b => decide (a < b)
  | a, b => decide (a.rank < b.rank)

end Component

/-- A path as it is written. -/
structure Path where
  text : String
deriving DecidableEq, Repr, Inhabited

namespace Path

/-- Whether a path starts at the root. -/
def isAbsolute (path : Path) : Bool :=
  path.text.toList.head? = some '/'

/-- What stands between the slashes of a path. -/
def parts (path : Path) : List String :=
  (splitAt '/' path.text.toList).map String.ofList

/-- Whether a part of a path stays in the directory that the parts before it lead to. -/
def staysPut (part : String) : Bool :=
  part = "" || part = "."

/-- The steps of a path. Only at the start of a relative path a dot is a step. -/
def components (path : Path) : List Component :=
  let steps := (path.parts.filter (!staysPut ·)).map Component.ofText
  if path.isAbsolute then .root :: steps
  else if path.parts.head? = some "." then .current :: steps
  else steps

/-- Whether two paths have the same steps. -/
def same (path other : Path) : Bool :=
  path.components = other.components

/-- Whether a list of steps does not come after another one. The first difference decides. -/
def stepsNotAfter : List Component → List Component → Bool
  | [], _ => true
  | _ :: _, [] => false
  | a :: as, b :: bs => if a = b then stepsNotAfter as bs else a.before b

/-- Whether a path does not come after another one, step by step. -/
def notAfter (path other : Path) : Bool :=
  stepsNotAfter path.components other.components

/-- The path `path` as seen from `base`. An absolute path stays as it is. -/
def join (base path : Path) : Path :=
  if path.isAbsolute || base.text = "" then path
  else if base.text.toList.getLast? = some '/' then ⟨base.text ++ path.text⟩
  else ⟨base.text ++ "/" ++ path.text⟩

/-- The path of names behind a path. -/
def behind (base : Path) (names : List String) : Path :=
  if names.isEmpty then base else base.join ⟨joined "/" names⟩

/-- The parts that follow a number of steps. -/
def partsAfter : Nat → List String → List String
  | 0, parts => parts.dropWhile staysPut
  | _ + 1, [] => []
  | count + 1, part :: rest =>
    if staysPut part then partsAfter (count + 1) rest else partsAfter count rest

/-- What follows the steps of `base` in a path that starts with them, as it is written. A path that does
not start with them stays as it is. -/
def relativeTo (path base : Path) : Path :=
  if base.components.isPrefixOf path.components then
    let rest := partsAfter (base.parts.countP (!staysPut ·)) path.parts
    ⟨joined "/" (rest.reverse.dropWhile staysPut).reverse⟩
  else path

/-- A path without the slashes at its end. The slash of the root stays. -/
def trimEnd (path : Path) : Path :=
  match path.text.toList.reverse.dropWhile (· = '/') with
  | [] => if path.isAbsolute then ⟨"/"⟩ else path
  | rest => ⟨String.ofList rest.reverse⟩

/-- A path and the directories that lead to it, the nearest first, from its parts in reverse. -/
def chainOfParts : List String → List Path
  | [] => []
  | [first] => if first = "" then [⟨"/"⟩] else [⟨first⟩, ⟨""⟩]
  | part :: rest =>
    if staysPut part then chainOfParts rest
    else ⟨joined "/" (part :: rest).reverse⟩ :: chainOfParts rest

/-- The directories that lead to a path, the nearest first. A relative path starts in a directory
without a name. -/
def ancestors (path : Path) : List Path :=
  if path.text = "" then [] else (chainOfParts path.parts.reverse).drop 1

/-- The directory of a path. -/
def parent? (path : Path) : Option Path :=
  path.ancestors.head?

/-- The name at the end of a path. A path that ends with a step upwards has none. -/
def fileName? (path : Path) : Option String :=
  match path.components.getLast? with
  | some (.name text) => some text
  | _ => none

/-- What follows the last dot of the file name. A dot at the start of the name does not count. -/
def extension? (path : Path) : Option String :=
  match path.fileName? with
  | none => none
  | some name =>
    let (ending, rest) := name.toList.reverse.span (· ≠ '.')
    match rest with
    | [] | [_] => none
    | _ => some (String.ofList ending.reverse)

/-- The steps of a path with one slash between each two. -/
def includeText (path : Path) : String :=
  joined "/" (path.components.map Component.text)

end Path

/-- Whether a path has a null character, which no file can have in its path. -/
def Path.hasNull (path : Path) : Bool :=
  path.text.toList.contains '\x00'

/-- Why a file cannot be read or written. -/
inductive FileFault where
  /-- The system does not allow it. -/
  | refused
  /-- The content is no text. -/
  | notText
  | nullInPath
deriving DecidableEq, Repr

namespace FileFault

/-- The end of a message about a file. -/
def detail : FileFault → String
  | .refused => ""
  | .notText => ": stream did not contain valid UTF-8"
  | .nullInPath => ": file name contained an unexpected NUL byte"

/-- Why a file cannot be written at a path. -/
def ofPath (path : Path) : FileFault :=
  if path.hasNull then .nullInPath else .refused

end FileFault

end EnumConverter
