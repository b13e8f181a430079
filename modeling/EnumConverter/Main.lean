import EnumConverter.Command.Arguments
import EnumConverter.Command.Run

namespace EnumConverter

/-- The item at a location. Links are not followed. -/
def readItem? (place : Location) : IO (Option Item) := do
  let path := System.mkFilePath [(FileTree.pathTo place).text]
  if !(← path.pathExists) then return none
  match (← path.symlinkMetadata).type with
  | .dir => return some .directory
  | .file => return some (.ofBytes (← IO.FS.readBinFile path).toList)
  | _ => return none

/-- The item at a location, with everything below it. -/
partial def readItems (place : Location) : IO (List (Location × Item)) := do
  let some item ← readItem? place | return []
  let mut items := [(place, item)]
  if item = .directory then
    for entry in ← (System.mkFilePath [(FileTree.pathTo place).text]).readDir do
      items := items ++ (← readItems (place ++ [entry.fileName]))
  return items

/-- The directories around a location, with what their ignore files depend on. -/
def readAround (place : Location) : IO (List (Location × Item)) := do
  let names := FileTree.ruleNames.map ([·]) ++ [[".git", "info"], [".git", "info", "exclude"]]
  let places := around place ++ (around place).flatMap fun directory => names.map (directory ++ ·)
  places.filterMapM fun place => do return (← readItem? place).map (place, ·)

/-- The files below the working directory and at some paths. -/
def readTree (paths : List Path) : IO FileTree := do
  let current := FileTree.named {} ⟨(← IO.currentDir).toString⟩
  let mut items := []
  for place in (current :: paths.map (FileTree.named { current })).eraseDups do
    items := items ++ (← readItems place) ++ (← readAround place)
  return { items := items.filter (·.1 ≠ []), current }

/-- The usual ignore file for all repositories. -/
def ignoreFileEverywhere : IO (Option Path) := do
  match (← IO.getEnv "XDG_CONFIG_HOME").filter (· ≠ ""), ← IO.getEnv "HOME" with
  | some directory, _ => return some (Path.join ⟨directory⟩ ⟨"git/ignore"⟩)
  | none, some home => return some (Path.join ⟨home⟩ ⟨".config/git/ignore"⟩)
  | none, none => return none

/-- What a command is about, unless it only makes a file with settings. -/
def Command.subject? : Command → Option Subject
  | .generate subject _ _ | .validate subject | .inspect subject _ => some subject
  | .init _ _ => none

/-- The paths that a command names. -/
def Command.paths : Command → List Path
  | .init target _ => [target]
  | .generate subject _ _ | .validate subject | .inspect subject _ =>
    subject.input :: subject.settingsFile.toList

/-- The files that matter to a command. Where it writes is known from the settings. -/
def readFor (command : Command) (everywhere : Option Path) : IO FileTree := do
  let paths := command.paths ++ everywhere.toList
  let tree ← readTree paths
  let settings? := command.subject?.bind fun subject =>
    (resolveSettings tree subject.settingsFile subject.adjustment).toOption
  match settings? with
  | some settings => readTree (settings.output.dir :: paths)
  | none => return tree

/-- Writes what is new in a tree. -/
def writeNewItems (before after : FileTree) : IO Unit := do
  for (place, item) in after.newItems before do
    let path := (FileTree.pathTo place).text
    match item with
    | .directory => IO.FS.createDirAll path
    | .text content => IO.FS.writeFile path content
    | .binary _ => pure ()

/-- Shows an outcome and writes its files. -/
def finish (before : FileTree) (outcome : Outcome) : IO Unit := do
  writeNewItems before outcome.tree
  (← IO.getStdout).putStr outcome.output
  (← IO.getStdout).flush
  for error in outcome.errors do
    IO.eprintln error.report

/-- Waits for changes and answers them. -/
partial def watch (command : Command) (subject : Subject) (settings : Settings)
    (options : GenerateOptions) (everywhere : Option Path) (seen : FileTree) : IO Unit := do
  IO.sleep 500
  let tree ← readFor command everywhere
  match watchEvents settings.scan (tree.named subject.input) seen tree with
  | [] => watch command subject settings options everywhere tree
  | event :: _ =>
    let outcome := runChange (.standard everywhere) event subject.input settings options tree
    finish tree outcome
    watch command subject settings options everywhere outcome.tree

/-- Runs a command in the working directory. -/
def runHere (command : Command) : IO UInt32 := do
  let everywhere ← ignoreFileEverywhere
  let tree ← readFor command everywhere
  let outcome := command.run (.standard everywhere) tree
  finish tree outcome
  match command, outcome.failure with
  | .generate subject options true, none =>
    match resolveSettings tree subject.settingsFile subject.adjustment with
    | .ok settings => watch command subject settings options everywhere outcome.tree
    | .error _ => pure ()
  | _, _ => pure ()
  return outcome.exitCode.toUInt32

end EnumConverter

open EnumConverter in
/-- Runs the command that the words of the command line ask for. -/
def main (arguments : List String) : IO UInt32 := do
  match Command.ofArguments arguments with
  | .ok command => runHere command
  | .error (.usage error) =>
    IO.eprintln ("error: " ++ error.message ++ "\n\n" ++ usageLine .program)
    return 2
  | .error (.help topic) =>
    IO.println (helpText topic)
    return 0
  | .error .version =>
    IO.println versionText
    return 0
