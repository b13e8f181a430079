import EnumConverter.Project.Discovery
import EnumConverter.Command
import EnumConverter.Project.Watch
import EnumConverter.Project.Writer

namespace EnumConverter

/-- Why files are not valid. -/
inductive ValidationError where
  /-- There is a file with settings already. -/
  | settingsExist
  /-- Files differ from what would be generated, or are missing. -/
  | outOfDate (count : Nat)
deriving DecidableEq, Repr

/-- The message for an error. -/
def ValidationError.message : ValidationError → String
  | .settingsExist => "Configuration file already exists"
  | .outOfDate count => toString count ++ " generated file(s) out of date"

/-- Why a command fails. -/
inductive CommandError where
  | scan (error : ScanError)
  | generate (error : GenerateError)
  | settings (error : SettingsError)
  | write (error : WriteError)
  | watch (fault : WatchFault)
  /-- There are diagnostics that are not accepted. -/
  | diagnostics (count : Nat)
  | validation (error : ValidationError)
  /-- A file could not be written that is no generated one. -/
  | system
deriving DecidableEq, Repr

namespace CommandError

/-- The message for an error, without what the system says about it. -/
def message : CommandError → String
  | .scan error => "Failed to scan directory: " ++ error.message
  | .generate error => "Failed to generate converters: " ++ error.message
  | .settings error => "Failed to load configuration: " ++ error.message
  | .write error => "Failed to write output: " ++ error.message
  | .watch fault => "Watch error: " ++ fault.message
  | .diagnostics count => toString count ++ " diagnostic(s) failed the build"
  | .validation error => "Validation failed: " ++ error.message
  | .system => "IO error"

/-- The line that reports an error. -/
def report (error : CommandError) : String :=
  "Error: " ++ error.message

/-- The exit code with which an error ends the program. -/
def exitCode : CommandError → Nat
  | .validation _ => 2
  | _ => 1

end CommandError

/-- What a command comes to. -/
structure Outcome where
  /-- The files as they are then. -/
  tree : FileTree
  /-- What is printed, line by line. A line can hold a text of several lines. -/
  lines : List String := []
  /-- Errors that are reported but do not end the command. -/
  overcome : List CommandError := []
  /-- The error that ends the command. -/
  failure : Option CommandError := none
deriving DecidableEq, Repr

namespace Outcome

/-- The outcome with lines printed before it. -/
def after (lines : List String) (outcome : Outcome) : Outcome :=
  { outcome with lines := lines ++ outcome.lines }

/-- Everything that is printed. -/
def output (outcome : Outcome) : String :=
  String.join (outcome.lines.map (· ++ "\n"))

/-- All errors that are reported, in order. -/
def errors (outcome : Outcome) : List CommandError :=
  outcome.overcome ++ outcome.failure.toList

/-- The exit code of the program. -/
def exitCode (outcome : Outcome) : Nat :=
  (outcome.failure.map (·.exitCode)).getD 0

@[simp] theorem after_tree (lines : List String) (outcome : Outcome) :
    (outcome.after lines).tree = outcome.tree := rfl

@[simp] theorem after_failure (lines : List String) (outcome : Outcome) :
    (outcome.after lines).failure = outcome.failure := rfl

end Outcome

end EnumConverter
