import EnumConverter.Path
import EnumConverter.Project.IgnorePattern

namespace EnumConverter

open Text

/-- What a rule says about a path. -/
inductive Verdict where
  | ignore
  | keep
deriving DecidableEq, Repr

/-- A rule of an ignore file. -/
structure IgnoreRule where
  pattern : IgnorePattern
  verdict : Verdict := .ignore
  /-- Whether the rule is for directories only. -/
  directoriesOnly : Bool := false
deriving Inhabited, Repr

namespace IgnoreRule

/-- The pattern for all depths: one without slashes fits in every directory. -/
def withDepth (anchored : Bool) (cs : List Char) : List Char :=
  let starsFirst := cs = ['*', '*'] || (dropStart? ['*', '*', '/'] cs).isSome
  if anchored || cs.contains '/' || starsFirst then cs else ['*', '*', '/'] ++ cs

/-- The pattern for what is inside a directory: two stars at the end do not fit the directory. -/
def withInside (cs : List Char) : List Char :=
  if (dropEnd? ['/', '*', '*'] cs).isSome then cs ++ ['/', '*'] else cs

/-- The marks at the start of a line: an exclamation mark keeps what fits, and a slash ties the pattern
to its directory. A backslash keeps an exclamation mark or a hash from being a mark. -/
def takeMarks (cs : List Char) : Verdict × Bool × List Char :=
  let takeSlash : List Char → Bool × List Char
    | '/' :: rest => (true, rest)
    | cs => (false, cs)
  match cs with
  | '\\' :: '!' :: rest => (.ignore, false, '!' :: rest)
  | '\\' :: '#' :: rest => (.ignore, false, '#' :: rest)
  | '!' :: rest => (.keep, takeSlash rest)
  | cs => (.ignore, takeSlash cs)

/-- The rule of a line that is not blank. A slash at the end is for directories only. -/
def parse (cs : List Char) : Except PatternFault IgnoreRule := do
  let (verdict, anchored, cs) := takeMarks cs
  let (directoriesOnly, cs) := match dropEnd? ['/'] cs with
    | some rest => (true, (dropEnd? ['\\'] rest).getD rest)
    | none => (false, cs)
  let pattern ← IgnorePattern.parse (withInside (withDepth anchored cs))
  return { pattern, verdict, directoriesOnly }

/-- Whether a rule applies to a path. -/
def applies (rule : IgnoreRule) (path : List UInt8) (isDirectory : Bool) : Bool :=
  (!rule.directoriesOnly || isDirectory) && rule.pattern.fits path

end IgnoreRule

/-- What a line of an ignore file can be. -/
inductive IgnoreLine where
  /-- A blank line or a comment. -/
  | blank
  | valid (rule : IgnoreRule)
  | invalid (text : String) (fault : PatternFault)
deriving Inhabited, Repr

namespace IgnoreLine

/-- Reads a line. Blanks at its end do not count unless a backslash protects them. -/
def parse (cs : List Char) : IgnoreLine :=
  if cs.head? = some '#' then .blank
  else
    let cs := if (dropEnd? ['\\', ' '] cs).isSome then cs else trimEnd cs
    if cs.isEmpty then .blank
    else match IgnoreRule.parse cs with
      | .ok rule => .valid rule
      | .error fault => .invalid (String.ofList cs) fault

/-- The rule of a line. -/
def rule? : IgnoreLine → Option IgnoreRule
  | .valid rule => some rule
  | _ => none

end IgnoreLine

/-- What can be wrong with an ignore file. -/
inductive IgnoreFault where
  | invalidLine (number : Nat) (text : String) (fault : PatternFault)
  /-- A pattern is too deep. It is known by its number among the patterns that are not plain, and a
  plain one by zero. -/
  | tooDeep (number : Nat)
deriving DecidableEq, Repr

/-- The message for a fault in the file at a path. -/
def IgnoreFault.message (path : Path) : IgnoreFault → String
  | .invalidLine number text fault =>
    path.text ++ ": line " ++ toString number ++ ": error parsing glob '" ++ text ++ "': " ++
      fault.message
  | .tooDeep number => "error parsing pattern " ++ toString number

/-- The fault of a line with its number. -/
def IgnoreLine.fault? (number : Nat) : IgnoreLine → Option IgnoreFault
  | .invalid text fault => some (.invalidLine number text fault)
  | _ => none

/-- The fault of the first pattern that is too deep, where plain ones come first. -/
def tooDeepFault? (rules : List IgnoreRule) : Option IgnoreFault :=
  let (plain, others) := (rules.map (·.pattern)).partition (·.isPlain)
  if plain.any (·.isTooDeep) then some (.tooDeep 0)
  else (others.findIdx? (·.isTooDeep)).map IgnoreFault.tooDeep

/-- What an ignore file says. -/
structure IgnoreFile where
  rules : List IgnoreRule := []
  faults : List IgnoreFault := []
deriving Inhabited, Repr

namespace IgnoreFile

/-- Reads an ignore file from its lines. Byte order marks at the start do not count. A pattern that is
too deep spoils all rules. -/
def ofLines (lines : List (List Char)) : IgnoreFile :=
  let lines := match lines with
    | [] => []
    | first :: rest => first.dropWhile (· = '\uFEFF') :: rest
  let read := lines.map IgnoreLine.parse
  let rules := read.filterMap IgnoreLine.rule?
  let faults := (read.zipIdx 1).filterMap fun (line, number) => line.fault? number
  match tooDeepFault? rules with
  | some fault => { faults := faults ++ [fault] }
  | none => { rules, faults }

/-- What the rules say about a path. -/
def verdict? (file : IgnoreFile) (path : List UInt8) (isDirectory : Bool) : Option Verdict :=
  (file.rules.reverse.find? (·.applies path isDirectory)).map (·.verdict)

end IgnoreFile

end EnumConverter
