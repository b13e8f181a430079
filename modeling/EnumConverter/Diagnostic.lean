import EnumConverter.Source.Token

namespace EnumConverter

open Source

/-- How serious a diagnostic is. -/
inductive Severity where
  /-- Output is still produced. -/
  | warning
  /-- A declaration was dropped, or the braces of the text do not match. -/
  | error
deriving DecidableEq, Repr

/-- The name of a severity in messages. -/
def Severity.name : Severity → String
  | .warning => "warning"
  | .error => "error"

/-- What a diagnostic is about. -/
inductive DiagnosticKind where
  /-- Braces do not match, or the body of an enum is not closed. -/
  | unbalancedScope
  /-- A line below the marker requests nothing known. -/
  | unrecognizedDirective
  /-- An annotation requests no conversion. -/
  | emptyDirectiveSet
  /-- An override cannot be read or is repeated. -/
  | malformedOverride
  /-- Two annotated enums have the same qualified path. -/
  | duplicateQualifiedName
  /-- An annotated enum has no enumerators. -/
  | emptyEnum
  /-- An annotated enum has no name. -/
  | anonymousEnum
  /-- An enum has two enumerators of one name. -/
  | duplicateEnumerator
deriving DecidableEq, Repr

namespace DiagnosticKind

/-- The severity of all diagnostics of a kind. -/
def severity : DiagnosticKind → Severity
  | .unrecognizedDirective | .malformedOverride | .duplicateEnumerator => .warning
  | .unbalancedScope | .emptyDirectiveSet | .duplicateQualifiedName | .emptyEnum
  | .anonymousEnum => .error

/-- The name of a kind in messages. -/
def code : DiagnosticKind → String
  | .unbalancedScope => "unbalanced-scope"
  | .unrecognizedDirective => "unrecognized-directive"
  | .emptyDirectiveSet => "empty-directive-set"
  | .malformedOverride => "malformed-override"
  | .duplicateQualifiedName => "duplicate-qualified-name"
  | .emptyEnum => "empty-enum"
  | .anonymousEnum => "anonymous-enum"
  | .duplicateEnumerator => "duplicate-enumerator"

/-- Every kind. -/
def all : List DiagnosticKind :=
  [.unbalancedScope, .unrecognizedDirective, .emptyDirectiveSet, .malformedOverride,
   .duplicateQualifiedName, .emptyEnum, .anonymousEnum, .duplicateEnumerator]

/-- The word for a kind in reports. -/
def word : DiagnosticKind → String
  | .unbalancedScope => "unbalanced_scope"
  | .unrecognizedDirective => "unrecognized_directive"
  | .emptyDirectiveSet => "empty_directive_set"
  | .malformedOverride => "malformed_override"
  | .duplicateQualifiedName => "duplicate_qualified_name"
  | .emptyEnum => "empty_enum"
  | .anonymousEnum => "anonymous_enum"
  | .duplicateEnumerator => "duplicate_enumerator"

/-- The kind that a word stands for. -/
def ofWord? (word : String) : Option DiagnosticKind :=
  all.find? (·.word = word)

@[simp] theorem ofWord?_word (kind : DiagnosticKind) : ofWord? kind.word = some kind := by
  cases kind <;> decide

end DiagnosticKind

/-- Something found at a place of a header. -/
structure Diagnostic where
  kind : DiagnosticKind
  message : String
  position : Position
  /-- The path of the header, where it is known. -/
  file : Option String := none
deriving DecidableEq, Repr

namespace Diagnostic

/-- The severity of a diagnostic. -/
def severity (diagnostic : Diagnostic) : Severity :=
  diagnostic.kind.severity

/-- Whether a diagnostic is an error. -/
def isError (diagnostic : Diagnostic) : Bool :=
  diagnostic.severity = .error

/-- The diagnostic as one line of text. -/
def display (diagnostic : Diagnostic) : String :=
  let file := (diagnostic.file.map (· ++ ":")).getD ""
  file ++ toString diagnostic.position.line ++ ":" ++ toString diagnostic.position.column ++ ": " ++
    diagnostic.severity.name ++ "[" ++ diagnostic.kind.code ++ "]: " ++ diagnostic.message

end Diagnostic

end EnumConverter
