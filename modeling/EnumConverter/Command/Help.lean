import EnumConverter.Command.Options
import EnumConverter.Command
import EnumConverter.Text.Line

namespace EnumConverter

open Text

/-- What help can be asked for. -/
inductive HelpTopic where
  | program
  | command (name : CommandName)
  /-- The request for help itself. -/
  | help
deriving DecidableEq, Repr

/-- What a command does. -/
def CommandName.about : CommandName → String
  | .generate => "Generate converters from annotated C++ headers"
  | .init => "Initialize a new cpp-codegen configuration file"
  | .validate => "Validate that generated converters are up-to-date"
  | .inspect => "Print the declaration model and diagnostics as JSON"

namespace OptionName

/-- An option as it is written, with a name for its value. Long names stand below each other. -/
def label (option : OptionName) : String :=
  let start := match option.short? with
    | some c => "-" ++ c.toString ++ ", --"
    | none => "    --"
  let value := match option.takes with
    | .nothing => if option = .verbose then "..." else ""
    | _ => " <" ++ option.long.map Char.toUpper ++ ">"
  start ++ option.long ++ value

/-- What an option is for. -/
def about (option : OptionName) (command : Option CommandName) : String :=
  match option with
  | .input => "Input directory containing C++ headers [default: .]"
  | .output =>
    match command with
    | some .init => "Output path for configuration file [default: " ++ settingsFileName ++ "]"
    | some .validate => "Output directory holding the generated files"
    | _ => "Output directory for generated files"
  | .config => "Configuration file path"
  | .filter => "Filter headers by relative path pattern (glob)"
  | .marker => "Annotation marker to look for instead of the configured one"
  | .watch => "Watch for file changes and regenerate"
  | .dryRun => "Preview changes without writing files"
  | .force => "Overwrite existing configuration file"
  | .strict => "Fail when error diagnostics are reported"
  | .denyWarnings => "Fail when any diagnostic is reported"
  | .strictDirectives => "Drop enums whose annotation has unrecognized directive lines"
  | .noGitignore => "Also scan headers ignored by .gitignore"
  | .verbose => "Increase log verbosity (-v for debug, -vv for trace)"
  | .help => "Print help"
  | .version => "Print version"

end OptionName

/-- The options of a command as help shows them: the one that all commands share comes second. -/
def CommandName.shownOptions (name : CommandName) : List OptionName :=
  match name.options with
  | [] => [.verbose]
  | first :: rest => first :: .verbose :: rest.filter (· ≠ .verbose)

/-- What a request for help says about itself. -/
def helpAbout : String :=
  "Print this message or the help of the given subcommand(s)"

/-- The lines of a part of a screen, with the explanations below each other. -/
def helpPart (title : String) (entries : List (String × String)) : List String :=
  let width := (entries.map (·.1.length)).foldl max 0
  title :: entries.map fun (label, about) =>
    "  " ++ label ++ String.ofList (List.replicate (width + 2 - label.length) ' ') ++ about

/-- The part of a screen that shows options. -/
def helpOptions (command : Option CommandName) (options : List OptionName) : List String :=
  helpPart "Options:" (options.map fun option => (option.label, option.about command))

/-- How the program is used. -/
def usageLine : HelpTopic → String
  | .program => "Usage: cpp-codegen [OPTIONS] <COMMAND>"
  | .command name => "Usage: cpp-codegen " ++ name.word ++ " [OPTIONS]"
  | .help => "Usage: cpp-codegen help [COMMAND]..."

/-- The lines of a screen. -/
def helpLines (topic : HelpTopic) : List String :=
  match topic with
  | .program =>
    ["Generate string and JSON converters for annotated C++ enums", "", usageLine topic, ""] ++
      helpPart "Commands:"
        (CommandName.all.map (fun name => (name.word, name.about)) ++ [("help", helpAbout)]) ++
      [""] ++ helpOptions none generalOptions
  | .command name =>
    [name.about, "", usageLine topic, ""] ++ helpOptions (some name) name.shownOptions
  | .help =>
    [helpAbout, "", usageLine topic, ""] ++
      helpPart "Arguments:" [("[COMMAND]...", "Print help for the subcommand(s)")]

/-- The answer to a request for help. -/
def helpText (topic : HelpTopic) : String :=
  joined "\n" (helpLines topic)

end EnumConverter
