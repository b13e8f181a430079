namespace EnumConverter.Toml

/-- A number with a fraction or an exponent. -/
inductive Fractional where
  /-- The digits times ten to the power of the exponent. -/
  | decimal (negative : Bool) (digits : Nat) (exponent : Int)
  | infinity (negative : Bool)
  | notANumber
deriving DecidableEq, Inhabited, Repr

namespace Fractional

/-- The least number that is rounded to infinity in binary with 53 digits and exponents up to 1023: half
a step more than the greatest one that is kept. -/
def overflow : Nat :=
  Nat.pow 2 1024 - Nat.pow 2 970

/-- Whether a number is not rounded to infinity. The power of ten is not worked out where the exponent
alone decides. -/
def isInRange : Fractional → Bool
  | .decimal _ digits (.ofNat exponent) =>
    digits == 0 || (exponent ≤ 308 && digits * Nat.pow 10 exponent < overflow)
  | .decimal _ digits (.negSucc exponent) =>
    Nat.log2 digits ≤ exponent || digits < overflow * Nat.pow 10 (exponent + 1)
  | _ => true

end Fractional

/-- A value of a document. Times are kept as they are written. -/
inductive Value where
  | string (text : String)
  | integer (number : Int)
  | float (number : Fractional)
  | boolean (flag : Bool)
  | time (text : String)
  | array (items : List Value)
  | table (entries : List (String × Value))
deriving Inhabited, Repr

/-- Integers have at most 128 binary digits, with one for the sign if they are negative. -/
def isIntegerInRange (number : Int) : Bool :=
  decide (if number < 0 then number.natAbs ≤ Nat.pow 2 127 else number.natAbs < Nat.pow 2 128)

mutual

/-- Whether no number of a value is too large to be read. -/
def Value.isInRange : Value → Bool
  | .integer number => isIntegerInRange number
  | .float number => number.isInRange
  | .array items => areInRange items
  | .table entries => entriesInRange entries
  | _ => true

/-- Whether no number of a list is too large to be read. -/
def areInRange : List Value → Bool
  | [] => true
  | item :: rest => item.isInRange && areInRange rest

/-- Whether no number of a table is too large to be read. -/
def entriesInRange : List (String × Value) → Bool
  | [] => true
  | (_, value) :: rest => value.isInRange && entriesInRange rest

end

/-- How a table came into being. -/
inductive Origin where
  /-- The path of a header leads through it. -/
  | implied
  /-- It has a header of its own. -/
  | header
  /-- A dotted key leads through it. -/
  | dotted
deriving DecidableEq, Repr, Inhabited

/-- What a key stands for while the document is being read. -/
inductive Node where
  /-- A value that nothing can be added to. -/
  | closed (value : Value)
  | table (origin : Origin) (entries : List (String × Node))
  /-- A list of tables, each with a header of its own. Only the last one can be extended. -/
  | tables (items : List (List (String × Node)))
deriving Inhabited

/-- The entries of a table that is being written. -/
abbrev Entries := List (String × Node)

mutual

/-- The value that a node stands for. -/
def Node.toValue : Node → Value
  | .closed value => value
  | .table _ entries => .table (entriesToValues entries)
  | .tables items => .array (tablesToValues items)

/-- The values of the entries of a table. -/
def entriesToValues : List (String × Node) → List (String × Value)
  | [] => []
  | (key, node) :: rest => (key, node.toValue) :: entriesToValues rest

/-- The values of a list of tables. -/
def tablesToValues : List (List (String × Node)) → List Value
  | [] => []
  | entries :: rest => .table (entriesToValues entries) :: tablesToValues rest

end

namespace Entries

/-- What a key stands for. -/
def find? (entries : Entries) (key : String) : Option Node :=
  (List.find? (·.1 = key) entries).map (·.2)

/-- The entries with a new meaning of one key. -/
def set (entries : Entries) (key : String) (node : Node) : Entries :=
  if entries.any (·.1 = key) then
    entries.map fun entry => if entry.1 = key then (key, node) else entry
  else entries ++ [(key, node)]

/-- Gives a dotted key a value. The table that gets the value is one of dotted keys only. On the way to
it there can be tables that headers of other tables lead through, and lists of tables, which stand for
their last one. -/
def assign (entries : Entries) (value : Node) : List String → Option Entries
  | [] => none
  | [key] =>
    match entries.find? key with
    | none => some (entries.set key value)
    | some _ => none
  | key :: next :: rest =>
    match entries.find? key with
    | none => do
      let inner ← assign [] value (next :: rest)
      some (entries.set key (.table .dotted inner))
    | some (.table origin inner) =>
      if origin = .header ∨ (origin = .implied ∧ rest = []) then none
      else do
        let inner ← assign inner value (next :: rest)
        some (entries.set key (.table origin inner))
    | some (.tables items) =>
      match items.getLast? with
      | none => none
      | some last =>
        if rest = [] then none
        else do
          let inner ← assign last value (next :: rest)
          some (entries.set key (.tables (items.dropLast ++ [inner])))
    | some (.closed _) => none

/-- Changes the table at a path that headers may take. Missing tables on the way are implied, and a
list of tables stands for its last one. -/
def alter (change : Entries → Option Entries) (entries : Entries) : List String → Option Entries
  | [] => change entries
  | key :: rest =>
    match entries.find? key with
    | none => do
      let inner ← alter change [] rest
      some (entries.set key (.table .implied inner))
    | some (.table origin inner) => do
      let inner ← alter change inner rest
      some (entries.set key (.table origin inner))
    | some (.tables items) =>
      match items.getLast? with
      | none => none
      | some last => do
        let inner ← alter change last rest
        some (entries.set key (.tables (items.dropLast ++ [inner])))
    | some (.closed _) => none

/-- Opens the table of a header. Only a table that was merely implied may be there already. -/
def openTable (entries : Entries) (path : List String) : Option Entries :=
  match path.getLast? with
  | none => none
  | some key =>
    entries.alter (fun inner =>
      match inner.find? key with
      | none => some (inner.set key (.table .header []))
      | some (.table .implied old) => some (inner.set key (.table .header old))
      | some _ => none) path.dropLast

/-- Opens one more table of the list of tables of a header. -/
def openListed (entries : Entries) (path : List String) : Option Entries :=
  match path.getLast? with
  | none => none
  | some key =>
    entries.alter (fun inner =>
      match inner.find? key with
      | none => some (inner.set key (.tables [[]]))
      | some (.tables items) => some (inner.set key (.tables (items ++ [[]])))
      | some _ => none) path.dropLast

end Entries

end EnumConverter.Toml
