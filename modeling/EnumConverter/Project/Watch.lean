import EnumConverter.Settings
import EnumConverter.Project.FileTree

namespace EnumConverter

/-- Something that happened to a watched file. -/
inductive WatchEvent where
  /-- The file is new or has new content. -/
  | modified (path : Path)
  | deleted (path : Path)
  | error (message : String)
deriving DecidableEq, Repr

namespace WatchEvent

/-- The file to which the event happened. -/
def path? : WatchEvent → Option Path
  | .modified path | .deleted path => some path
  | .error _ => none

/-- The message of an error. -/
def message? : WatchEvent → Option String
  | .error message => some message
  | _ => none

end WatchEvent

/-- What happened to the item at a location between two times. -/
def changeAt? (before after : FileTree) (place : Location) : Option WatchEvent :=
  let path := FileTree.pathTo place
  match after.item? place with
  | none => some (.deleted path)
  | some item => if before.item? place = some item then none else some (.modified path)

/-- What happened to the headers below a location between two times. -/
def watchEvents (settings : ScanSettings) (root : Location) (before after : FileTree) :
    List WatchEvent :=
  let places := ((after.items ++ before.items).map (·.1)).eraseDups
  let watched := places.filter fun place =>
    root.isPrefixOf place && settings.hasHeaderExtension (FileTree.pathTo place)
  watched.filterMap (changeAt? before after)

/-- Why a directory cannot be watched. -/
inductive WatchFault where
  /-- It is not there. -/
  | missing
  /-- The system does not allow it. -/
  | refused
deriving DecidableEq, Repr

/-- The message for a fault, without what the system says about it. -/
def WatchFault.message : WatchFault → String
  | .missing => "Watch notification error: No path was found."
  | .refused => "Watch notification error"

/-- Why a directory cannot be watched, if it cannot. The empty path stands for the working directory
here. -/
def FileTree.watchFault? (tree : FileTree) (root : Path) : Option WatchFault :=
  if root.text = "" then none
  else match tree.locate root with
    | .ok _ => none
    | .error .missing => some .missing
    | .error _ => some .refused

end EnumConverter
