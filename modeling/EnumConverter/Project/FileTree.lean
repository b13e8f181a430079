import EnumConverter.Path

namespace EnumConverter

open Text

/-- The names that lead from the root to an item, the outermost first. The root itself has none. -/
abbrev Location := List String

/-- What can be at a location. -/
inductive Item where
  /-- A file with a text. -/
  | text (content : String)
  /-- A file whose bytes are no text. -/
  | binary (bytes : List UInt8)
  | directory
deriving DecidableEq, Repr, Inhabited

/-- The text that bytes stand for. -/
def textOfBytes? (bytes : List UInt8) : Option String :=
  String.fromUTF8? ⟨bytes.toArray⟩

/-- The byte of a line feed. -/
def lineFeedByte : UInt8 := 10

/-- The lines of bytes up to the first one that is no text, each with its line feed. -/
def leadingText (bytes : List UInt8) : String :=
  let lines := (splitAt lineFeedByte bytes).map textOfBytes?
  String.join ((lines.takeWhile (·.isSome)).map fun line => line.getD "" ++ "\n")

namespace Item

/-- The file with the given bytes. -/
def ofBytes (bytes : List UInt8) : Item :=
  match textOfBytes? bytes with
  | some content => .text content
  | none => .binary bytes

/-- The lines of a file, as far as they are text. -/
def lines : Item → List (List Char)
  | .text content => Text.lines content.toList
  | .binary bytes => Text.lines (leadingText bytes).toList
  | .directory => []

/-- Whether the first line of an item can be read, which has to be text. -/
def startsWithText : Item → Bool
  | .text _ => true
  | .binary bytes => (textOfBytes? (bytes.takeWhile (· ≠ lineFeedByte))).isSome
  | .directory => false

/-- Why an item cannot be read as text. -/
def readFault : Item → FileFault
  | .directory => .refused
  | _ => .notText

/-- Whether an item is a file. -/
def isFile : Item → Bool
  | .directory => false
  | _ => true

end Item

/-- The items below the root. -/
structure FileTree where
  items : List (Location × Item) := []
  /-- The working directory, in which relative paths start. -/
  current : Location := []
deriving DecidableEq, Repr

/-- Why a path cannot be used. -/
inductive PathFault where
  /-- There is nothing of that name. -/
  | missing
  /-- A file stands where a directory is needed. -/
  | notDirectory
  /-- Something stands there already. -/
  | taken
  /-- A name or the whole path is too long, or has a character that no path can have. -/
  | unusable
deriving DecidableEq, Repr

/-- How many bytes a name can have. -/
def nameLimit : Nat := 255

/-- How many bytes a path can have. -/
def pathLimit : Nat := 4095

/-- Why a path cannot be used, if it can be told from the path alone. -/
def Path.fault? (path : Path) : Option PathFault :=
  if path.hasNull || pathLimit < path.text.utf8ByteSize then some .unusable
  else if path.text = "" then some .missing
  else none

namespace FileTree

/-- What is at a location. -/
def item? (tree : FileTree) (place : Location) : Option Item :=
  if place = [] then some .directory else tree.items.lookup place

/-- The tree with an item at a location. -/
def set (tree : FileTree) (place : Location) (item : Item) : FileTree :=
  { tree with items := (place, item) :: tree.items.filter (·.1 ≠ place) }

@[simp] theorem item?_root (tree : FileTree) : tree.item? [] = some .directory := rfl

@[simp] theorem current_set (tree : FileTree) (place : Location) (item : Item) :
    (tree.set place item).current = tree.current := rfl

theorem lookup_filter_ne {place other : Location} (h : other ≠ place)
    (items : List (Location × Item)) :
    (items.filter (·.1 ≠ place)).lookup other = items.lookup other := by
  induction items with
  | nil => rfl
  | cons entry rest ih =>
    obtain ⟨key, item⟩ := entry
    by_cases hkey : key = place
    · subst hkey
      have hne : (other == key) = false := by simpa using h
      rw [List.filter_cons_of_neg (by simp), ih, List.lookup_cons, hne]
    · rw [List.filter_cons_of_pos (by simpa using hkey), List.lookup_cons, List.lookup_cons, ih]

/-- What is set is there afterwards, and nothing else changes. -/
theorem item?_set (tree : FileTree) {place : Location} (hplace : place ≠ []) (item : Item)
    (other : Location) :
    (tree.set place item).item? other = if other = place then some item else tree.item? other := by
  unfold item? set
  by_cases hother : other = place
  · subst hother
    simp [hplace]
  · have hne : (other == place) = false := by simpa using hother
    rw [if_neg hother, List.lookup_cons, hne, lookup_filter_ne hother]

/-- Whether there is a file at a location. -/
def hasFile (tree : FileTree) (place : Location) : Bool :=
  (tree.item? place).any (·.isFile)

/-- Goes on from a location to where one part of a path leads. Above the root there is only the root. -/
def step (tree : FileTree) (place : Location) (part : String) : Except PathFault Location :=
  if tree.item? place ≠ some .directory then .error .notDirectory
  else if Path.staysPut part then .ok place
  else if part = ".." then .ok place.dropLast
  else if nameLimit < part.utf8ByteSize then .error .unusable
  else if (tree.item? (place ++ [part])).isSome then .ok (place ++ [part])
  else .error .missing

/-- Where a path starts: at the root if it is absolute, and otherwise in the working directory. -/
def origin (tree : FileTree) (path : Path) : Location :=
  if path.isAbsolute then [] else tree.current

/-- The location that one part of a path names, whether or not anything is there. -/
def descend (place : Location) (part : String) : Location :=
  if Path.staysPut part then place else if part = ".." then place.dropLast else place ++ [part]

/-- The location that a path names, whether or not anything is there. -/
def named (tree : FileTree) (path : Path) : Location :=
  path.parts.foldl descend (tree.origin path)

/-- Where a path leads. -/
def locate (tree : FileTree) (path : Path) : Except PathFault Location :=
  match path.fault? with
  | some fault => .error fault
  | none => path.parts.foldlM tree.step (tree.origin path)

/-- What a path leads to. -/
def find? (tree : FileTree) (path : Path) : Option Item :=
  match tree.locate path with
  | .ok place => tree.item? place
  | .error _ => none

/-- Whether a path leads to an item. -/
def contains (tree : FileTree) (path : Path) : Bool :=
  (tree.find? path).isSome

/-- Whether a path leads to a file. -/
def isFile (tree : FileTree) (path : Path) : Bool :=
  (tree.find? path).any (·.isFile)

/-- Where a path leads whose last part may be new. Its directory has to be there. -/
def locateNew (tree : FileTree) (path : Path) : Except PathFault Location :=
  match path.fault? with
  | some fault => .error fault
  | none => do
    let name := path.parts.getLast?.getD ""
    let place ← path.parts.dropLast.foldlM tree.step (tree.origin path)
    if tree.item? place ≠ some .directory then .error .notDirectory
    else if Path.staysPut name || name = ".." then .error .taken
    else if nameLimit < name.utf8ByteSize then .error .unusable
    else .ok (place ++ [name])

/-- Makes a directory in a directory that is there. Slashes may follow the name. -/
def makeDirectory (tree : FileTree) (path : Path) : Except PathFault FileTree := do
  let place ← tree.locateNew path.trimEnd
  if (tree.item? place).isSome then .error .taken else .ok (tree.set place .directory)

/-- Puts a file where there is no directory. -/
def writeFile (tree : FileTree) (path : Path) (item : Item) : Except PathFault FileTree := do
  let place ← tree.locateNew path
  if tree.item? place = some .directory then .error .taken else .ok (tree.set place item)

/-- Makes the first directory of a list after those behind it, which lead to it, and says whether it is
there in the end. What was made before a failure stays. -/
def makeChain (tree : FileTree) : List Path → FileTree × Bool
  | [] => (tree, false)
  | path :: leading =>
    if path.text = "" then (tree, true)
    else match tree.makeDirectory path with
      | .ok made => (made, true)
      | .error .missing =>
        match makeChain tree leading with
        | (led, false) => (led, false)
        | (led, true) =>
          match led.makeDirectory path with
          | .ok made => (made, true)
          | .error _ => (led, led.find? path = some .directory)
      | .error _ => (tree, tree.find? path = some .directory)

/-- Makes a directory and all directories that lead to it. -/
def makeDirectories (tree : FileTree) (path : Path) : FileTree × Bool :=
  tree.makeChain (path :: path.ancestors)

/-- The path of a location. -/
def pathTo (place : Location) : Path :=
  ⟨"/" ++ joined "/" place⟩

/-- The items of a tree that another one does not have, those near the root first. -/
def newItems (after before : FileTree) : List (Location × Item) :=
  let items := after.items.filter fun (place, item) => before.item? place ≠ some item
  items.mergeSort fun a b => a.1.length ≤ b.1.length

end FileTree

end EnumConverter
