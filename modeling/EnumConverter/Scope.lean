import EnumConverter.Text.Line

namespace EnumConverter

open Text

/-- What opens a named scope. -/
inductive ScopeKind where
  | namespaceScope
  /-- A class, a struct or a union. -/
  | typeScope
deriving DecidableEq, Repr, Inhabited

namespace ScopeKind

/-- Both kinds. -/
def all : List ScopeKind := [.namespaceScope, .typeScope]

/-- The word for a kind in reports. -/
def word : ScopeKind → String
  | .namespaceScope => "namespace"
  | .typeScope => "type"

/-- The kind that a word stands for. -/
def ofWord? (word : String) : Option ScopeKind :=
  all.find? (·.word = word)

@[simp] theorem ofWord?_word (kind : ScopeKind) : ofWord? kind.word = some kind := by
  cases kind <;> decide

end ScopeKind

/-- One named level of a scope. -/
structure Segment where
  name : String
  kind : ScopeKind
deriving DecidableEq, Repr

/-- The named levels around a place, outermost first. -/
abbrev Scope := List Segment

/-- A text cut at every double colon, read from the left. -/
def splitAtPathSeparators : List Char → List (List Char)
  | [] => [[]]
  | ':' :: ':' :: cs => [] :: splitAtPathSeparators cs
  | c :: cs =>
    match splitAtPathSeparators cs with
    | [] => [[c]]
    | part :: rest => (c :: part) :: rest

namespace Scope

/-- The namespaces that a path such as `a::b` names. Empty parts of the path are skipped. -/
def ofNamespacePath (path : String) : Scope :=
  ((splitAtPathSeparators path.toList).filter (! ·.isEmpty)).map
    fun part => ⟨String.ofList part, .namespaceScope⟩

/-- The names of all levels. -/
def names (scope : Scope) : List String :=
  scope.map (·.name)

/-- The namespaces around the outermost type. Functions for a member of a type are declared there,
because a type cannot be opened again. -/
def namespacePart (scope : Scope) : Scope :=
  scope.takeWhile (·.kind = .namespaceScope)

end Scope

/-- A name and the scope in which it is declared. -/
structure QualifiedPath where
  scope : Scope
  name : String
deriving DecidableEq, Repr

namespace QualifiedPath

/-- All names of a path, outermost first. -/
def components (path : QualifiedPath) : List String :=
  path.scope.names ++ [path.name]

/-- Whether two paths have the same names. What kinds of scopes the names stand for does not count. -/
def sameNames (path other : QualifiedPath) : Bool :=
  path.components = other.components

/-- All names of a path with a separator between each two. -/
def joinedBy (path : QualifiedPath) (separator : String) : String :=
  joined separator path.components

/-- The path as shown in messages. -/
def display (path : QualifiedPath) : String :=
  path.joinedBy "::"

/-- The path as generated code refers to it, starting at the global namespace. -/
def reference (path : QualifiedPath) : String :=
  "::" ++ path.display

end QualifiedPath

end EnumConverter
