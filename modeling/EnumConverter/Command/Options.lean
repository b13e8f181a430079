namespace EnumConverter

/-- What an option takes. -/
inductive ValueKind where
  | nothing
  | text
  /-- A text that is not empty. -/
  | path
deriving DecidableEq, Repr

/-- The options of all commands. -/
inductive OptionName where
  | input
  | output
  | config
  | filter
  | marker
  | watch
  | dryRun
  | force
  | strict
  | denyWarnings
  | strictDirectives
  | noGitignore
  | verbose
  | help
  | version
deriving DecidableEq, Repr

namespace OptionName

/-- The long name. -/
def long : OptionName → String
  | .input => "input"
  | .output => "output"
  | .config => "config"
  | .filter => "filter"
  | .marker => "marker"
  | .watch => "watch"
  | .dryRun => "dry-run"
  | .force => "force"
  | .strict => "strict"
  | .denyWarnings => "deny-warnings"
  | .strictDirectives => "strict-directives"
  | .noGitignore => "no-gitignore"
  | .verbose => "verbose"
  | .help => "help"
  | .version => "version"

/-- The short name, if there is one. -/
def short? : OptionName → Option Char
  | .input => some 'i'
  | .output => some 'o'
  | .config => some 'c'
  | .watch => some 'w'
  | .verbose => some 'v'
  | .help => some 'h'
  | .version => some 'V'
  | _ => none

/-- What the option takes. -/
def takes : OptionName → ValueKind
  | .input | .output | .config => .path
  | .filter | .marker => .text
  | _ => .nothing

end OptionName

/-- The commands by name. -/
inductive CommandName where
  | generate
  | init
  | validate
  | inspect
deriving DecidableEq, Repr

namespace CommandName

/-- Every command. -/
def all : List CommandName := [.generate, .init, .validate, .inspect]

/-- The word for a command. -/
def word : CommandName → String
  | .generate => "generate"
  | .init => "init"
  | .validate => "validate"
  | .inspect => "inspect"

/-- The command that a word stands for. -/
def ofWord? (word : String) : Option CommandName :=
  all.find? (·.word = word)

@[simp] theorem ofWord?_word (name : CommandName) : ofWord? name.word = some name := by
  cases name <;> decide

/-- The options of a command. -/
def options : CommandName → List OptionName
  | .generate =>
    [.input, .output, .watch, .dryRun, .config, .filter, .strict, .denyWarnings, .marker,
     .strictDirectives, .noGitignore, .verbose, .help]
  | .init => [.output, .force, .verbose, .help]
  | .validate =>
    [.input, .output, .config, .marker, .strictDirectives, .noGitignore, .verbose, .help]
  | .inspect =>
    [.input, .config, .filter, .marker, .strictDirectives, .noGitignore, .verbose, .help]

end CommandName

/-- The options in front of a command. -/
def generalOptions : List OptionName := [.verbose, .help, .version]

end EnumConverter
