import EnumConverter.Build
import EnumConverter.Proofs.Scan.Passage

namespace EnumConverter.Printing

open Source Scan

/-- A text that is one word. -/
structure Name where
  text : String
  isWord : isIdentifier text.toList = true

/-- A word that can name a namespace. -/
structure NamespaceName extends Name where
  notInline : text ≠ "inline"

/-- A word that can name a type or an enum. -/
structure TypeName extends Name where
  notSpecifier : text ∉ specifierWords

/-- The value in an override, which stays on its line. -/
structure Payload where
  text : String
  oneLine : '\n' ∉ text.toList

/-- The conversion that is not the given one. -/
def otherKind : Conversion → Conversion
  | .string => .json
  | .json => .string

/-- A character of a payload as it is written, with a backslash before a backslash and a quote. -/
def escape (c : Char) : List Char :=
  if c = '\\' ∨ c = '"' then ['\\', c] else [c]

/-- An override as it is written: the payload between quotes, and the tag. -/
def override (kind : Conversion) (payload : Payload) : String :=
  "\"" ++ String.ofList (payload.text.toList.flatMap escape) ++ "\"" ++ kind.tag

/-- What is noted behind an enumerator. -/
inductive Note where
  | absent
  /-- A comment that overrides nothing. -/
  | empty
  | single (kind : Conversion) (payload : Payload)
  /-- Overrides for both conversions, the first one for `kind`. The second one stands on a line of its
  own if `below` says so. -/
  | double (kind : Conversion) (first second : Payload) (below : Bool)

namespace Note

/-- The comment on the line of the enumerator. -/
def beside : Note → Option String
  | .absent => none
  | .empty => some "//<"
  | .single kind payload | .double kind payload _ true => some ("//< " ++ override kind payload)
  | .double kind first second false =>
    some ("//< " ++ (override kind first ++ " " ++ override (otherKind kind) second))

/-- The comment on the line below the enumerator. -/
def below : Note → Option String
  | .double kind _ second true => some ("//< " ++ override (otherKind kind) second)
  | _ => none

/-- The value for a conversion, if the note has one. -/
def value? (note : Note) (wanted : Conversion) : Option String :=
  match note with
  | .absent | .empty => none
  | .single kind payload => if wanted = kind then some payload.text else none
  | .double kind first second _ => some (if wanted = kind then first.text else second.text)

end Note

/-- An enumerator and what is noted behind it. -/
structure Member where
  name : Name
  note : Note

namespace Member

/-- The line of the enumerator itself. -/
def line (member : Member) : String :=
  match member.note.beside with
  | none => member.name.text ++ ","
  | some comment => member.name.text ++ ", " ++ comment

/-- The lines of an enumerator with its note. -/
def lines (member : Member) : List String :=
  member.line :: member.note.below.toList

/-- The enumerator that is expected from a member on the given line. -/
def enumerator (member : Member) (line : Nat) : Enumerator where
  name := member.name.text
  stringValue := (member.note.value? .string).getD member.name.text
  jsonValue := (member.note.value? .json).getD member.name.text
  line := line

end Member

/-- The lines of all enumerators. -/
def memberLines (members : List Member) : List String :=
  members.flatMap Member.lines

/-- The enumerators that are expected from members whose lines start at `line`. -/
def enumerators (line : Nat) : List Member → List Enumerator
  | [] => []
  | member :: members =>
    member.enumerator line :: enumerators (line + member.lines.length) members

/-- An enum definition. Without requests it has no annotation. -/
structure EnumNode where
  /-- The conversions that the annotation requests, in the order of its lines. -/
  requests : List Conversion
  isScoped : Bool
  name : TypeName
  members : List Member
  /-- Without `class` before it, the name itself must not look like that word. -/
  notKey : isScoped = false → name.text ≠ "class" ∧ name.text ≠ "struct"
  /-- An annotated enum has enumerators. -/
  inhabited : requests ≠ [] → members ≠ []
  /-- The enumerators of an annotated enum have different names. -/
  distinct : requests ≠ [] → (members.map (·.name.text)).Nodup

namespace EnumNode

/-- The lines of the annotation. -/
def annotation (node : EnumNode) : List String :=
  if node.requests = [] then []
  else "/**" :: " * @cpp_codegen" :: node.requests.map (fun kind => " * " ++ kind.keyword) ++ [" */"]

/-- The line with the keyword. -/
def header (node : EnumNode) : String :=
  if node.isScoped then "enum class " ++ node.name.text ++ " \x7b"
  else "enum " ++ node.name.text ++ " \x7b"

/-- All lines of an enum. -/
def lines (node : EnumNode) : List String :=
  node.annotation ++ node.header :: memberLines node.members ++ ["\x7d;"]

/-- The line with the keyword, if the lines of the enum start at `line`. -/
def headerLine (node : EnumNode) (line : Nat) : Nat :=
  line + node.annotation.length

/-- The declaration that is expected from an annotated enum whose lines start at `line`. -/
def declaration (node : EnumNode) (scope : Scope) (line : Nat) : Declaration where
  path := ⟨scope, node.name.text⟩
  requested := .ofList node.requests
  enumerators := enumerators (node.headerLine line + 1) node.members
  isScoped := node.isScoped
  line := node.headerLine line

end EnumNode

/-- What opens a block. -/
inductive Opening where
  /-- A namespace of the given names, which is unnamed if there are none. -/
  | namespaceOf (names : List NamespaceName)
  | structOf (name : TypeName)
  | classOf (name : TypeName)
  /-- Declarations with the linkage of another language, which opens no named scope. -/
  | linkage

/-- The line that opens a type, which a keyword introduces. -/
def typeHeader (key : String) (name : TypeName) : String :=
  key ++ " " ++ name.text ++ " \x7b"

namespace Opening

/-- The line that opens the block. -/
def line : Opening → String
  | .namespaceOf names => namespaceHeader (names.map (·.text))
  | .structOf name => typeHeader "struct" name
  | .classOf name => typeHeader "class" name
  | .linkage => "extern \"C\" \x7b"

/-- The line that closes the block. -/
def closing : Opening → String
  | .structOf _ | .classOf _ => "\x7d;"
  | .namespaceOf _ | .linkage => "\x7d"

/-- The names that the block brings. -/
def segments : Opening → Scope
  | .namespaceOf names => namespaceSegments (names.map (·.text))
  | .structOf name | .classOf name => [⟨name.text, .typeScope⟩]
  | .linkage => []

end Opening

/-- A node of the tree. -/
inductive Item where
  | block (opening : Opening) (inside : List Item)
  | enumeration (node : EnumNode)

mutual

/-- The lines of an item. -/
def Item.lines : Item → List String
  | .block opening inside => opening.line :: itemLines inside ++ [opening.closing]
  | .enumeration node => node.lines

/-- The lines of a list of items. -/
def itemLines : List Item → List String
  | [] => []
  | item :: items => item.lines ++ itemLines items

end

/-- Lines as a text. Each of them ends with a line feed. -/
def unlines : List String → String
  | [] => ""
  | line :: rest => line ++ "\n" ++ unlines rest

theorem toList_unlines_append (first second : List String) :
    (unlines (first ++ second)).toList = (unlines first).toList ++ (unlines second).toList := by
  induction first with
  | nil => simp [unlines]
  | cons line first ih => simp [unlines, ih]

/-- A header as it is written. -/
def print (items : List Item) : String :=
  unlines (itemLines items)

/-- An enum of a tree, the scope in which it stands and the line on which its lines start. -/
structure Site where
  node : EnumNode
  scope : Scope
  line : Nat

mutual

/-- The enums of an item in `scope` whose lines start at `line`. -/
def Item.sites (scope : Scope) (line : Nat) : Item → List Site
  | .block opening inside => sites (scope ++ opening.segments) (line + 1) inside
  | .enumeration node => [⟨node, scope, line⟩]

/-- The enums of a list of items in `scope` whose lines start at `line`. -/
def sites (scope : Scope) (line : Nat) : List Item → List Site
  | [] => []
  | item :: items => item.sites scope line ++ sites scope (line + item.lines.length) items

end

/-- The declaration that is expected from an enum, if it is annotated. -/
def Site.declaration? (site : Site) : Option Declaration :=
  if site.node.requests = [] then none else some (site.node.declaration site.scope site.line)

/-- The declarations that are expected from a header. -/
def declarations (items : List Item) : List Declaration :=
  (sites [] 1 items).filterMap Site.declaration?

end EnumConverter.Printing
