import EnumConverter.Build
import EnumConverter.Emit.Code
import EnumConverter.Emit.Layout

namespace EnumConverter

open Text Emit

/-- Where generated files go and how they look. -/
structure OutputSettings extends Layout where
  /-- The directory for generated files. -/
  dir : Path := ⟨"./generated"⟩
  indent : Indent := .spaces4
deriving DecidableEq, Repr

/-- How annotations are written. -/
structure AnnotationSettings where
  /-- The word that opens an annotation. -/
  marker : String := Annotation.defaultMarker
  /-- Whether an enum with a directive that is not understood is dropped. -/
  strictDirectives : Bool := false
deriving DecidableEq, Repr

/-- Which files are read. -/
structure ScanSettings where
  /-- The extensions of headers, without the dot. -/
  extensions : List String := ["h", "hh", "hpp", "hxx"]
  /-- Files whose names start with one of these texts are skipped. -/
  skippedStarts : List String := ["test_"]
  /-- Whether files that version control ignores are skipped. -/
  respectGitignore : Bool := true
deriving DecidableEq, Repr

/-- All settings of a run. -/
structure Settings where
  output : OutputSettings := {}
  annotation : AnnotationSettings := {}
  scan : ScanSettings := {}
deriving DecidableEq, Repr

/-- How the settings ask for headers to be read. -/
def AnnotationSettings.build (settings : AnnotationSettings) : BuildSettings where
  marker := .ofText settings.marker
  strict := settings.strictDirectives

/-- Why settings are rejected. -/
inductive InvalidSetting where
  | emptyMarker
  | severalMarkers
  | noExtensions
  | headerExtension (text : String)
  | sourceExtension (text : String)
  | sameExtensions
deriving DecidableEq, Repr

namespace InvalidSetting

/-- The setting at fault. -/
def key : InvalidSetting → String
  | .emptyMarker | .severalMarkers => "annotation.marker"
  | .noExtensions => "scan.extensions"
  | .headerExtension _ => "output.header_extension"
  | .sourceExtension _ | .sameExtensions => "output.source_extension"

/-- What is wrong with the setting. -/
def reason : InvalidSetting → String
  | .emptyMarker => "marker must not be empty"
  | .severalMarkers => "marker must be a single word"
  | .noExtensions => "at least one extension is required"
  | .headerExtension text | .sourceExtension text =>
    "'" ++ text ++ "' is not an extension without a leading dot"
  | .sameExtensions => "header and source extensions must differ"

/-- The message for a rejected setting. -/
def message (invalid : InvalidSetting) : String :=
  "Invalid configuration value for '" ++ invalid.key ++ "': " ++ invalid.reason

end InvalidSetting

/-- Whether a text can be the extension of generated files. -/
def isExtension (text : String) : Bool :=
  match text.toList with
  | [] => false
  | c :: _ => c ≠ '.'

namespace Settings

/-- The first thing that is wrong with the settings. -/
def fault? (settings : Settings) : Option InvalidSetting :=
  let markers := words settings.annotation.marker.toList
  let output := settings.output
  if markers.isEmpty then some .emptyMarker
  else if markers.length > 1 then some .severalMarkers
  else if settings.scan.extensions.isEmpty then some .noExtensions
  else if !isExtension output.headerExtension then some (.headerExtension output.headerExtension)
  else if !isExtension output.sourceExtension then some (.sourceExtension output.sourceExtension)
  else if output.headerExtension = output.sourceExtension then some .sameExtensions
  else none

end Settings

/-- Settings given for a single run, which take precedence. -/
structure Adjustment where
  output : Option Path := none
  marker : Option String := none
  strictDirectives : Option Bool := none
  respectGitignore : Option Bool := none
deriving DecidableEq, Repr

/-- The settings with an adjustment. -/
def Settings.adjust (settings : Settings) (adjustment : Adjustment) : Settings where
  output := { settings.output with dir := adjustment.output.getD settings.output.dir }
  annotation :=
    { marker := adjustment.marker.getD settings.annotation.marker
      strictDirectives :=
        adjustment.strictDirectives.getD settings.annotation.strictDirectives }
  scan :=
    { settings.scan with
      respectGitignore := adjustment.respectGitignore.getD settings.scan.respectGitignore }

namespace ScanSettings

/-- Whether a path has the extension of a header. -/
def hasHeaderExtension (settings : ScanSettings) (path : Path) : Bool :=
  match path.extension? with
  | none => false
  | some extension => settings.extensions.contains extension

/-- Whether a name is to be skipped. A skipped start that is empty has no effect. -/
def skips (settings : ScanSettings) (name : String) : Bool :=
  settings.skippedStarts.any fun start =>
    start ≠ "" && (dropStart? start.toList name.toList).isSome

/-- Whether the file at a path is read as a header. -/
def accepts (settings : ScanSettings) (path : Path) : Bool :=
  settings.hasHeaderExtension path && !settings.skips (path.fileName?.getD "")

end ScanSettings

end EnumConverter
