import EnumConverter.Declaration
import EnumConverter.Emit.Code

namespace EnumConverter

namespace Declaration

/-- The path of an enumerator as generated code refers to it. This is right for scoped and unscoped
enums. -/
def enumeratorReference (declaration : Declaration) (name : String) : String :=
  declaration.path.reference ++ "::" ++ name

/-- The namespace in which the functions for an enum are declared, and the empty text for the global
one. -/
def functionNamespace (declaration : Declaration) : String :=
  Text.joined "::" declaration.path.scope.namespacePart.names

end Declaration

namespace Emit

/-- The code for one conversion of one enum. -/
structure Converter where
  kind : Conversion
  /-- Declarations for the header. -/
  header : String := ""
  /-- Definitions for the source file. -/
  source : String := ""
  /-- What the header has to include, in increasing order. -/
  headerIncludes : List String := []
  /-- What only the source file has to include, in increasing order. -/
  sourceIncludes : List String := []
deriving DecidableEq, Repr

/-- Why there is no converter. -/
inductive EmitError where
  /-- Nothing writes converters of this kind. -/
  | missingEmitter (kind : Conversion)
  | notRequested (path : QualifiedPath) (kind : Conversion)
  | emptyDeclaration (path : QualifiedPath)
deriving DecidableEq, Repr

/-- The message for an error. -/
def EmitError.message : EmitError → String
  | .missingEmitter kind => "no emitter registered for '" ++ kind.keyword ++ "'"
  | .notRequested path kind =>
    "enum '" ++ path.display ++ "' does not request '" ++ kind.keyword ++ "'"
  | .emptyDeclaration path => "enum '" ++ path.display ++ "' has no enumerators"

/-- Writes the converters of one conversion. -/
structure Emitter where
  kind : Conversion
  name : String
  emit : Indent → Declaration → Except EmitError Converter

/-- The converter that `write` gives, if the enum requests the conversion and has enumerators. -/
def emitChecked (kind : Conversion) (write : Indent → Declaration → Converter) (indent : Indent)
    (declaration : Declaration) : Except EmitError Converter :=
  if !declaration.requests kind then .error (.notRequested declaration.path kind)
  else if declaration.enumerators.isEmpty then .error (.emptyDeclaration declaration.path)
  else .ok (write indent declaration)

end Emit

end EnumConverter
