import EnumConverter.Path
import EnumConverter.Settings
import EnumConverter.Toml.Document

namespace EnumConverter

open Toml Emit

/-- The values of a section: by name, or as a list in the order of the settings. -/
inductive SettingsSection where
  | named (entries : List (String × Value))
  | listed (items : List Value)

namespace SettingsSection

/-- The section that a value stands for. A list is read up to the settings of the section, so that only
in a table unknown values matter. A time has no settings. -/
def ofValue? : Value → Option SettingsSection
  | .table entries => if entriesInRange entries then some (.named entries) else none
  | .array items => some (.listed items)
  | .time _ => some (.named [])
  | _ => none

/-- The section of a name in a document. A section that is missing is empty. -/
def ofDocument? (document : List (String × Value)) (name : String) : Option SettingsSection :=
  match document.lookup name with
  | none => some (.named [])
  | some value => ofValue? value

/-- The value of a setting, by its name or by its place among the settings of the section. -/
def value? (settings : SettingsSection) (place : Nat) (name : String) : Option Value :=
  match settings with
  | .named entries => entries.lookup name
  | .listed items => items[place]?

/-- A setting as `read` understands it, or its default. There is no result if the value has the wrong
type. -/
def read? {α : Type} (settings : SettingsSection) (place : Nat) (name : String)
    (read : Value → Option α) (default : α) : Option α :=
  match settings.value? place name with
  | none => some default
  | some value => read value

end SettingsSection

/-- A text. -/
def readText : Value → Option String
  | .string text => some text
  | _ => none

/-- A truth value. -/
def readFlag : Value → Option Bool
  | .boolean flag => some flag
  | _ => none

/-- A list of texts. -/
def readTexts : Value → Option (List String)
  | .array items => items.mapM readText
  | _ => none

/-- One of several choices: the word for it, or a table with the word as its only key and nothing in
it. -/
def readChoice {α : Type} (ofWord? : String → Option α) : Value → Option α
  | .string word => ofWord? word
  | .table [(word, .table [])] => ofWord? word
  | .table [(word, .array [])] => ofWord? word
  | _ => none

/-- The settings for generated files. -/
def readOutput (values : SettingsSection) : Option OutputSettings := do
  let defaults : OutputSettings := {}
  let dir ← values.read? 0 "dir" readText defaults.dir.text
  let includeDir ← values.read? 1 "include_prefix" readText defaults.includeDir
  let headerExtension ← values.read? 2 "header_extension" readText defaults.headerExtension
  let sourceExtension ← values.read? 3 "source_extension" readText defaults.sourceExtension
  let naming ← values.read? 4 "file_naming" (readChoice Naming.ofWord?) defaults.naming
  let fileCase ← values.read? 5 "file_case" (readChoice FileCase.ofWord?) defaults.fileCase
  let indent ← values.read? 6 "indent" (readChoice Indent.ofWord?) defaults.indent
  some { dir := ⟨dir⟩, includeDir, headerExtension, sourceExtension, naming, fileCase, indent }

/-- The settings for annotations. -/
def readAnnotation (values : SettingsSection) : Option AnnotationSettings := do
  let defaults : AnnotationSettings := {}
  let marker ← values.read? 0 "marker" readText defaults.marker
  let strictDirectives ←
    values.read? 1 "strict_directives" readFlag defaults.strictDirectives
  some { marker, strictDirectives }

/-- The settings for reading files. -/
def readScan (values : SettingsSection) : Option ScanSettings := do
  let defaults : ScanSettings := {}
  let extensions ← values.read? 0 "extensions" readTexts defaults.extensions
  let skippedStarts ← values.read? 1 "skip_prefixes" readTexts defaults.skippedStarts
  let respectGitignore ←
    values.read? 2 "respect_gitignore" readFlag defaults.respectGitignore
  some { extensions, skippedStarts, respectGitignore }

/-- The sections of a document. -/
def sectionNames : List String :=
  ["output", "annotation", "scan"]

/-- The settings that a text stands for, before they are checked. -/
def Settings.ofToml? (text : String) : Option Settings := do
  let document ← Toml.parse? text
  if !entriesInRange (document.filter fun (name, _) => !sectionNames.contains name) then none
  let output ← readOutput (← SettingsSection.ofDocument? document "output")
  let annotation ← readAnnotation (← SettingsSection.ofDocument? document "annotation")
  let scan ← readScan (← SettingsSection.ofDocument? document "scan")
  some { output, annotation, scan }

/-- Why settings could not be loaded. -/
inductive SettingsError where
  | notFound (path : Path)
  | notReadable (path : Path) (fault : FileFault)
  | notToml (path : Path)
  | invalid (setting : InvalidSetting)
deriving DecidableEq, Repr

/-- The settings that the text of the file at `path` stands for. -/
def Settings.parse (path : Path) (text : String) : Except SettingsError Settings :=
  match ofToml? text with
  | none => .error (.notToml path)
  | some settings =>
    match settings.fault? with
    | some fault => .error (.invalid fault)
    | none => .ok settings

end EnumConverter
