namespace EnumConverter.Text

/-- For each place of a text, from the one before its first member to the one behind its last member,
whether it is reached. -/
abbrev Reach := List Bool

namespace Reach

variable {α : Type}

/-- Before the first piece, only the start of the text is reached. -/
def start (text : List α) : Reach :=
  true :: text.map fun _ => false

/-- The places behind one member that passes a test. -/
def one (test : α → Bool) (text : List α) (reach : Reach) : Reach :=
  false :: List.zipWith (fun reached a => reached && test a) reach text

/-- The places behind any number of members that pass a test, where a run that began before may go
on. -/
def runFrom (test : α → Bool) (goesOn : Bool) : List α → Reach → Reach
  | _, [] => []
  | [], reached :: _ => [goesOn || reached]
  | a :: text, reached :: reach =>
    (goesOn || reached) :: runFrom test ((goesOn || reached) && test a) text reach

/-- The places behind any number of members that pass a test. -/
def run (test : α → Bool) (text : List α) (reach : Reach) : Reach :=
  runFrom test false text reach

/-- The places that one of two pieces reaches. -/
def either (reach other : Reach) : Reach :=
  List.zipWith (· || ·) reach other

/-- The places behind any number of steps, each of which ends with a separator. -/
def steps (isSeparator : α → Bool) (text : List α) (reach : Reach) : Reach :=
  either reach (one isSeparator text (run (fun _ => true) text reach))

/-- No place at all. -/
def nowhere (reach : Reach) : Reach :=
  reach.map fun _ => false

/-- Whether the end of the text is reached. -/
def atEnd (reach : Reach) : Bool :=
  reach.getLast?.getD false

end Reach

end EnumConverter.Text
