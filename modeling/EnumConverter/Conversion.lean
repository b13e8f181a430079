namespace EnumConverter

/-- A conversion that an annotated enum can request. -/
inductive Conversion where
  /-- Enumerator to canonical string and back. -/
  | string
  /-- Enumerator to JSON string and back. -/
  | json
deriving DecidableEq, Repr, Inhabited

namespace Conversion

/-- Every conversion, in the order in which converters are emitted. -/
def all : List Conversion := [.string, .json]

/-- The word that requests a conversion in an annotation. -/
def keyword : Conversion → String
  | .string => "string_serialization"
  | .json => "json_serialization"

/-- The conversion that a word requests. -/
def ofKeyword? (word : String) : Option Conversion :=
  all.find? (·.keyword = word)

/-- The tag behind a literal that overrides the value of a conversion. -/
def tag : Conversion → String
  | .string => "s"
  | .json => "json"

/-- The conversion that a tag stands for. -/
def ofTag? (word : String) : Option Conversion :=
  all.find? (·.tag = word)

@[simp] theorem mem_all (kind : Conversion) : kind ∈ all := by cases kind <;> decide

@[simp] theorem ofKeyword?_keyword (kind : Conversion) : ofKeyword? kind.keyword = some kind := by
  cases kind <;> decide

@[simp] theorem ofTag?_tag (kind : Conversion) : ofTag? kind.tag = some kind := by
  cases kind <;> decide

theorem tag_of_ofTag? {word : String} {kind : Conversion} (h : ofTag? word = some kind) :
    kind.tag = word := by
  simpa using List.find?_some h

end Conversion

/-- A set of conversions. -/
structure ConversionSet where
  string : Bool := false
  json : Bool := false
deriving DecidableEq, Repr, Inhabited

namespace ConversionSet

/-- Whether a conversion is in the set. -/
def contains (set : ConversionSet) : Conversion → Bool
  | .string => set.string
  | .json => set.json

/-- The set with one more conversion. -/
def insert (set : ConversionSet) : Conversion → ConversionSet
  | .string => { set with string := true }
  | .json => { set with json := true }

/-- The members, in the order in which converters are emitted. -/
def toList (set : ConversionSet) : List Conversion :=
  Conversion.all.filter set.contains

/-- The set of the conversions in a list. -/
def ofList (kinds : List Conversion) : ConversionSet :=
  kinds.foldl insert {}

/-- Whether the set has no member. -/
def isEmpty (set : ConversionSet) : Bool :=
  set.toList.isEmpty

@[simp] theorem contains_insert (set : ConversionSet) (kind other : Conversion) :
    (set.insert kind).contains other = (decide (kind = other) || set.contains other) := by
  cases kind <;> cases other <;> simp [insert, contains]

@[simp] theorem mem_toList {set : ConversionSet} {kind : Conversion} :
    kind ∈ set.toList ↔ set.contains kind = true := by
  simp [toList]

end ConversionSet

end EnumConverter
