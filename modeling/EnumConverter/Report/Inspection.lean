import EnumConverter.Generate
import EnumConverter.Text.Line

namespace EnumConverter.Report

open Text

/-- A value of a report. Reports hold no other numbers than counts and positions. -/
inductive JsonValue where
  | text (value : String)
  | number (value : Nat)
  | boolean (value : Bool)
  | list (items : List JsonValue)
  /-- Named members, in the order in which they are written. -/
  | record (fields : List (String × JsonValue))
deriving Repr, Inhabited

/-- The blanks in front of a line. -/
def margin (depth : Nat) : String :=
  String.ofList (List.replicate (2 * depth) ' ')

/-- Members between two delimiters. -/
def enclosed (opening closing : String) (depth : Nat) (members : List String) : String :=
  if members.isEmpty then opening ++ closing
  else opening ++ "\n" ++ joined ",\n" (members.map (margin (depth + 1) ++ ·)) ++ "\n" ++
    margin depth ++ closing

namespace JsonValue

mutual

/-- The text of a value whose line starts at a depth. -/
def prettyAt (depth : Nat) : JsonValue → String
  | .text value => Emit.quote value
  | .number value => toString value
  | .boolean true => "true"
  | .boolean false => "false"
  | .list items => enclosed "[" "]" depth (prettyItems (depth + 1) items)
  | .record fields => enclosed "\x7b" "\x7d" depth (prettyFields (depth + 1) fields)

/-- The texts of the members of a list. -/
def prettyItems (depth : Nat) : List JsonValue → List String
  | [] => []
  | item :: rest => item.prettyAt depth :: prettyItems depth rest

/-- The texts of named members. -/
def prettyFields (depth : Nat) : List (String × JsonValue) → List String
  | [] => []
  | (name, value) :: rest =>
    (Emit.quote name ++ ": " ++ value.prettyAt depth) :: prettyFields depth rest

end

/-- The text of a report. -/
def pretty (value : JsonValue) : String :=
  value.prettyAt 0

/-- A list of values. -/
def ofList {α : Type} (ofItem : α → JsonValue) (items : List α) : JsonValue :=
  .list (items.map ofItem)

/-- A named level of a scope. -/
def ofSegment (segment : Segment) : JsonValue :=
  .record [("name", .text segment.name), ("kind", .text segment.kind.word)]

/-- A qualified path. -/
def ofPath (path : QualifiedPath) : JsonValue :=
  .record [("scope", ofList ofSegment path.scope), ("name", .text path.name)]

/-- An enumerator with its values. -/
def ofEnumerator (enumerator : Enumerator) : JsonValue :=
  .record
    [("name", .text enumerator.name), ("string_value", .text enumerator.stringValue),
     ("json_value", .text enumerator.jsonValue), ("line", .number enumerator.line)]

/-- A declaration. -/
def ofDeclaration (declaration : Declaration) : JsonValue :=
  .record
    [("qualified_path", ofPath declaration.path),
     ("requested_conversions", ofList (.text ·.keyword) declaration.requested.toList),
     ("enumerators", ofList ofEnumerator declaration.enumerators),
     ("scoped", .boolean declaration.isScoped), ("line", .number declaration.line)]

/-- A diagnostic. Its header is named only where it is known. -/
def ofDiagnostic (diagnostic : Diagnostic) : JsonValue :=
  .record (
    [("kind", .text diagnostic.kind.word), ("severity", .text diagnostic.severity.name),
     ("message", .text diagnostic.message), ("line", .number diagnostic.position.line),
     ("column", .number diagnostic.position.column)] ++
    (diagnostic.file.map fun file => ("file", .text file)).toList)

/-- What a header holds. -/
def ofFile (file : FileAnalysis) : JsonValue :=
  .record
    [("relative_path", .text file.relativePath.text),
     ("declarations", ofList ofDeclaration file.declarations),
     ("diagnostics", ofList ofDiagnostic file.diagnostics)]

/-- What all headers hold. -/
def ofAnalysis (analysis : Analysis) : JsonValue :=
  .record [("files", ofList ofFile analysis.files)]

end JsonValue

end EnumConverter.Report
