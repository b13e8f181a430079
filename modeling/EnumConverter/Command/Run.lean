import EnumConverter.Command
import EnumConverter.Command.Outcome
import EnumConverter.Report.Inspection
import EnumConverter.Settings.Template
import EnumConverter.Text.Case

namespace EnumConverter

open Emit

/-- What the program relies on and does not bring along. -/
structure Toolkit where
  /-- The walk through directories. -/
  walk : Walk
  /-- The rule that puts names into snake case. -/
  snake : String → String

/-- The tools that the program is run with. There can be an ignore file for all repositories. -/
def Toolkit.standard (everywhere : Option Path) : Toolkit where
  walk := ignoreWalk everywhere
  snake := Text.snakeCase

/-- The headers below a directory, with a filter as it is written. There may be none. -/
def findHeaders (walk : Walk) (tree : FileTree) (root : Path) (settings : ScanSettings)
    (filter : Option String) : Except ScanError (List SourceFile) := do
  (← Search.ofText root settings filter).findAll walk tree

namespace Analysis

/-- The lines about diagnostics. -/
def diagnosticLines (analysis : Analysis) : List String :=
  if analysis.diagnostics.isEmpty then []
  else ("Diagnostics: " ++ toString (analysis.count .error) ++ " error(s), " ++
      toString (analysis.count .warning) ++ " warning(s):") ::
    analysis.diagnostics.map ("  " ++ ·.display)

end Analysis

/-- A line that sets off the text of a file. -/
def rule : String :=
  String.ofList (List.replicate 60 '─')

/-- The lines about a file. -/
def WriteResult.lines : WriteResult → List String
  | .written path bytes => ["✓ Written " ++ toString bytes ++ " bytes to " ++ path.text]
  | .unchanged path => ["· Unchanged " ++ path.text]
  | .preview path content => ["[dry-run] Would write to " ++ path.text ++ ":", rule, content, rule]

/-- Writes the files for what headers hold. -/
def writeConverters (snake : String → String) (settings : OutputSettings) (dryRun : Bool)
    (analysis : Analysis) (tree : FileTree) : Outcome :=
  let generation := generate snake settings .builtin analysis
  match generation.files with
  | .error error => { tree, failure := some (.generate error) }
  | .ok files =>
    match (Writer.mk settings.dir dryRun).writeAll tree files with
    | (after, .error error) => { tree := after, failure := some (.write error) }
    | (after, .ok results) =>
      let summary := "  Generated converters for " ++ toString generation.declarations ++
        " enum(s), " ++ toString (results.countP (·.wasWritten)) ++ " file(s) updated"
      { tree := after
        lines := results.flatMap (·.lines) ++ (if dryRun then [] else [summary]) }

/-- Generates the files for what was read from headers, unless diagnostics forbid it. -/
def convert (snake : String → String) (settings : Settings) (options : GenerateOptions)
    (analysis : Analysis) (tree : FileTree) : Outcome :=
  let failures := options.policy.failures analysis
  if failures > 0 then { tree, failure := some (.diagnostics failures) }
  else if analysis.declarations.isEmpty then
    { tree, lines := ["No enums annotated with " ++ settings.annotation.marker ++ " found."] }
  else
    (writeConverters snake settings.output options.dryRun analysis tree).after
      ["  Found " ++ toString analysis.declarations.length ++ " annotated enum(s)",
       "Generating converters..."]

/-- Generates the files for the headers below a directory. -/
def runGenerate (tools : Toolkit) (input : Path) (settings : Settings) (options : GenerateOptions)
    (tree : FileTree) : Outcome :=
  let outcome : Outcome :=
    match findHeaders tools.walk tree input settings.scan options.filter with
    | .error error => { tree, failure := some (.scan error) }
    | .ok [] => { tree, lines := ["No header files found."] }
    | .ok headers =>
      let analysis := analyze settings headers
      (convert tools.snake settings options analysis tree).after
        (["  Found " ++ toString headers.length ++ " header(s)",
          "Parsing enums annotated with " ++ settings.annotation.marker ++ "..."] ++
          analysis.diagnosticLines)
  outcome.after ["Scanning for C++ headers..."]

/-- The line that shows that a change is waited for. -/
def waiting : String := "\nWatching for changes..."

/-- Generates the files and starts to watch for changes. An error while generating does not end it. -/
def runWatch (tools : Toolkit) (input : Path) (settings : Settings) (options : GenerateOptions)
    (tree : FileTree) : Outcome :=
  let first := runGenerate tools input settings options tree
  let begun := first.after
    ["Starting watch mode...", "  Watching: " ++ input.text, "  Press Ctrl+C to stop\n"]
  let begun := { begun with overcome := first.failure.toList, failure := none }
  match first.tree.watchFault? input with
  | none => { begun with lines := begun.lines ++ [waiting] }
  | some fault => { begun with failure := some (.watch fault) }

/-- Answers a change. An error does not end the watch. -/
def runChange (tools : Toolkit) (event : WatchEvent) (input : Path) (settings : Settings)
    (options : GenerateOptions) (tree : FileTree) : Outcome :=
  match event.path? with
  | none => { tree, lines := ["Watch error: " ++ event.message?.getD "Unknown error"] }
  | some path =>
    let again := runGenerate tools input settings options tree
    let failed := again.failure.toList.map ("Generation error: " ++ ·.message)
    { tree := again.tree
      lines := ("\nFile changed: " ++ path.text) :: again.lines ++ failed ++ [waiting] }

/-- Writes a file with the usual settings. -/
def runInit (target : Path) (force : Bool) (tree : FileTree) : Outcome :=
  if tree.contains target && !force then
    { tree
      lines := ["Error: Configuration file already exists: " ++ target.text,
        "  Use --force to overwrite"]
      failure := some (.validation .settingsExist) }
  else
    match tree.writeFile target (.text settingsTemplate) with
    | .error _ => { tree, failure := some .system }
    | .ok written =>
      { tree := written, lines := ["✓ Created configuration file: " ++ target.text] }

/-- The line about a file that is not up to date. -/
def FileStatus.line? : FileStatus → Option String
  | .fresh _ => none
  | .stale path => some ("  stale: " ++ path.text)
  | .missing path => some ("  missing: " ++ path.text)

/-- How the files that are there compare with those that would be generated. -/
def checkConverters (tools : Toolkit) (input : Path) (settings : Settings) (tree : FileTree) :
    Except CommandError (List FileStatus) := do
  let headers ← (findHeaders tools.walk tree input settings.scan none).mapError .scan
  let generation := generate tools.snake settings.output .builtin (analyze settings headers)
  let files ← generation.files.mapError .generate
  ((Writer.mk settings.output.dir false).check tree files).mapError .write

/-- Reports which files are not up to date. -/
def runValidate (tools : Toolkit) (input : Path) (settings : Settings) (tree : FileTree) : Outcome :=
  match checkConverters tools input settings tree with
  | .error error => { tree, failure := some error }
  | .ok statuses =>
    let outdated := statuses.filter (!·.isFresh)
    if outdated.isEmpty then
      { tree, lines := ["✓ " ++ toString statuses.length ++ " file(s) are up-to-date"] }
    else
      { tree
        lines := outdated.filterMap (·.line?) ++
          ["✗ Converters are out of date", "  Run 'cpp-codegen generate' to update"]
        failure := some (.validation (.outOfDate outdated.length)) }

/-- Reports what headers hold. -/
def runInspect (walk : Walk) (input : Path) (settings : Settings) (filter : Option String)
    (tree : FileTree) : Outcome :=
  match findHeaders walk tree input settings.scan filter with
  | .error error => { tree, failure := some (.scan error) }
  | .ok headers =>
    { tree, lines := [(Report.JsonValue.ofAnalysis (analyze settings headers)).pretty] }

/-- Runs a command about headers with its settings. -/
def Subject.run (subject : Subject) (tree : FileTree) (action : Settings → Outcome) : Outcome :=
  match resolveSettings tree subject.settingsFile subject.adjustment with
  | .error error => { tree, failure := some (.settings error) }
  | .ok settings => action settings

/-- Runs a command. -/
def Command.run (tools : Toolkit) (tree : FileTree) : Command → Outcome
  | .generate subject options watch => subject.run tree fun settings =>
    if watch then runWatch tools subject.input settings options tree
    else runGenerate tools subject.input settings options tree
  | .init target force => runInit target force tree
  | .validate subject => (subject.run tree fun settings =>
      runValidate tools subject.input settings tree).after ["Validating converters..."]
  | .inspect subject filter => subject.run tree fun settings =>
    runInspect tools.walk subject.input settings filter tree

end EnumConverter
