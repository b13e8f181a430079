import EnumConverter.Generate
import EnumConverter.Project.FileTree
import EnumConverter.Settings.Reader

namespace EnumConverter

/-- The name under which settings are looked for. -/
def settingsFileName : String := "cpp-codegen.toml"

/-- The message for an error, without what the system or the format says about it. -/
def SettingsError.message : SettingsError → String
  | .notFound path => "Configuration file not found: " ++ path.text
  | .notReadable path fault => "Failed to read config " ++ path.text ++ fault.detail
  | .notToml path => "Invalid TOML in " ++ path.text
  | .invalid setting => setting.message

/-- The settings in the file at a path. -/
def readSettings (tree : FileTree) (path : Path) : Except SettingsError Settings :=
  match tree.find? path with
  | none => .error (.notFound path)
  | some (.text content) => Settings.parse path content
  | some item => .error (.notReadable path item.readFault)

/-- The settings of a file, or those of the working directory. -/
def loadSettings (tree : FileTree) (path : Option Path) : Except SettingsError Settings :=
  match path with
  | some path => readSettings tree path
  | none => if tree.contains ⟨settingsFileName⟩ then readSettings tree ⟨settingsFileName⟩ else .ok {}

/-- The settings of a run. -/
def resolveSettings (tree : FileTree) (path : Option Path) (adjustment : Adjustment) :
    Except SettingsError Settings := do
  let settings := (← loadSettings tree path).adjust adjustment
  match settings.fault? with
  | some fault => .error (.invalid fault)
  | none => return settings

/-- Where headers are, and with which settings they are read. -/
structure Subject where
  /-- The directory with headers. -/
  input : Path := ⟨"."⟩
  /-- The file with settings, if it is not the usual one. -/
  settingsFile : Option Path := none
  adjustment : Adjustment := {}
deriving DecidableEq, Repr

/-- How files are generated. -/
structure GenerateOptions where
  /-- Only headers whose relative paths fit this pattern are read. -/
  filter : Option String := none
  /-- Whether files are only shown. -/
  dryRun : Bool := false
  policy : DiagnosticPolicy := {}
deriving DecidableEq, Repr

/-- Something that the program can do. -/
inductive Command where
  /-- Generate files, and go on to do so whenever a header changes if `watch` is set. -/
  | generate (subject : Subject) (options : GenerateOptions) (watch : Bool)
  /-- Write a file with the usual settings. A file that is there stays, unless `force` is set. -/
  | init (target : Path) (force : Bool)
  /-- Compare the files that are there with those that would be generated. -/
  | validate (subject : Subject)
  /-- Report what headers hold. -/
  | inspect (subject : Subject) (filter : Option String)
deriving DecidableEq, Repr

end EnumConverter
