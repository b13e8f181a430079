import EnumConverter.Text.Reach

namespace EnumConverter

open Text

/-- One piece of a pattern. -/
inductive IgnoreToken where
  | byte (b : UInt8)
  | anyByte
  | anyRun
  /-- A byte in one of the spans, or in none of them. -/
  | oneOf (negated : Bool) (spans : List (UInt8 × UInt8))
  /-- Any number of directories at the start. -/
  | leadingSteps
  /-- A slash with any number of directories behind it. -/
  | innerSteps
  /-- A slash and everything behind it. -/
  | trailingSteps
  /-- One of several branches. Without any, nothing at all. -/
  | anyOf (branches : List (List IgnoreToken))
deriving Inhabited, Repr

/-- The byte of a slash. -/
def slashByte : UInt8 := 47

/-- The byte of a dot. -/
def dotByte : UInt8 := 46

mutual

/-- The places of a path that a token reaches. -/
def IgnoreToken.advance (path : List UInt8) (reach : Reach) : IgnoreToken → Reach
  | .byte b => reach.one (· = b) path
  | .anyByte => reach.one (· ≠ slashByte) path
  | .anyRun => reach.run (· ≠ slashByte) path
  | .oneOf negated spans =>
    reach.one (fun b => (spans.any fun (first, last) => first ≤ b && b ≤ last) != negated) path
  | .leadingSteps => reach.steps (· = slashByte) path
  | .innerSteps => (reach.one (· = slashByte) path).steps (· = slashByte) path
  | .trailingSteps => (reach.one (· = slashByte) path).run (fun _ => true) path
  | .anyOf [] => reach
  | .anyOf (branch :: branches) =>
    (advanceAll path reach branch).either (advanceAny path reach branches)

/-- The places that tokens reach one after the other. -/
def advanceAll (path : List UInt8) (reach : Reach) : List IgnoreToken → Reach
  | [] => reach
  | token :: rest => advanceAll path (token.advance path reach) rest

/-- The places that one of several branches reaches. -/
def advanceAny (path : List UInt8) (reach : Reach) : List (List IgnoreToken) → Reach
  | [] => reach.nowhere
  | branch :: branches => (advanceAll path reach branch).either (advanceAny path reach branches)

end

/-- How many pieces a token adds to a sequence. The slash before a run is one of its own, and no branches
at all are none. -/
def IgnoreToken.pieces : IgnoreToken → Nat
  | .trailingSteps => 2
  | .anyOf [] => 0
  | _ => 1

/-- The level of a sequence, which only counts if it has more than one piece. -/
def sequenceLevel (tokens : List IgnoreToken) : Nat :=
  if 1 < tokens.foldl (fun count token => count + token.pieces) 0 then 1 else 0

mutual

/-- How many levels a token has: one for each choice, each repetition and each sequence inside of it. -/
def IgnoreToken.depth : IgnoreToken → Nat
  | .byte _ => 0
  | .anyByte => 1
  | .anyRun => 2
  | .oneOf _ spans => if spans.length = 1 then 1 else 2
  | .leadingSteps => 4
  | .innerSteps => 4
  | .trailingSteps => 1
  | .anyOf [] => 0
  | .anyOf [branch] => 1 + sequenceLevel branch + greatestDepth branch
  | .anyOf branches => 2 + choiceDepth branches

/-- How many levels the deepest of several tokens has. -/
def greatestDepth : List IgnoreToken → Nat
  | [] => 0
  | token :: rest => max token.depth (greatestDepth rest)

/-- How many levels the deepest of several branches has. -/
def choiceDepth : List (List IgnoreToken) → Nat
  | [] => 0
  | branch :: branches =>
    max (sequenceLevel branch + greatestDepth branch) (choiceDepth branches)

end

end EnumConverter
