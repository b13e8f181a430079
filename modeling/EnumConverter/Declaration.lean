import EnumConverter.Conversion
import EnumConverter.Scope

namespace EnumConverter

/-- An enumerator and the values that stand for it. -/
structure Enumerator where
  name : String
  /-- The value in the string conversion. -/
  stringValue : String
  /-- The value in the JSON conversion. -/
  jsonValue : String
  /-- The line on which the enumerator stands. -/
  line : Nat
deriving DecidableEq, Repr

/-- The value of an enumerator in a conversion. -/
def Enumerator.value (enumerator : Enumerator) : Conversion → String
  | .string => enumerator.stringValue
  | .json => enumerator.jsonValue

/-- An enum for which converters are generated. -/
structure Declaration where
  path : QualifiedPath
  /-- The conversions that the annotation requests. -/
  requested : ConversionSet
  /-- The enumerators, in the order in which they are declared. -/
  enumerators : List Enumerator
  /-- Whether the definition says `enum class` or `enum struct`. -/
  isScoped : Bool := false
  /-- The line on which the definition starts. -/
  line : Nat := 0
deriving DecidableEq, Repr

namespace Declaration

/-- The name of the enum without its scope. -/
def name (declaration : Declaration) : String :=
  declaration.path.name

/-- Whether the annotation requests a conversion. -/
def requests (declaration : Declaration) (kind : Conversion) : Bool :=
  declaration.requested.contains kind

/-- The enumerator of a name. -/
def enumerator? (declaration : Declaration) (name : String) : Option Enumerator :=
  declaration.enumerators.find? (·.name = name)

/-- The enumerators with their values in a conversion, in the order in which they are declared. -/
def values (declaration : Declaration) (kind : Conversion) : List (String × String) :=
  declaration.enumerators.map fun enumerator => (enumerator.name, enumerator.value kind)

/-- The names of the enumerators with a value in a conversion. -/
def namesOf (declaration : Declaration) (kind : Conversion) (value : String) : List String :=
  ((declaration.values kind).filter (·.2 = value)).map (·.1)

/-- The values that several enumerators share in a conversion, in increasing order, each with the
names of its enumerators. Reading such a value gives the first of them. -/
def duplicateValues (declaration : Declaration) (kind : Conversion) :
    List (String × List String) :=
  let values := ((declaration.values kind).map (·.2)).eraseDups
  let shared := values.filter fun value => (declaration.namesOf kind value).length > 1
  (shared.mergeSort fun a b => !decide (b < a)).map fun value =>
    (value, declaration.namesOf kind value)

end Declaration

end EnumConverter
