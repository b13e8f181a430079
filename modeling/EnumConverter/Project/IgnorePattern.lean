import EnumConverter.Project.IgnoreToken
import EnumConverter.Text.Line

namespace EnumConverter

open Text

/-- The bytes of a text. -/
def bytesOf (cs : List Char) : List UInt8 :=
  (String.ofList cs).toUTF8.toList

/-- What a class in brackets is made of, up to its closing bracket. The first character may be a closing
bracket itself. -/
def takeClass? : List Char → Option (List Char)
  | [] => none
  | first :: rest =>
    if rest.contains ']' then some (first :: rest.takeWhile (· ≠ ']')) else none

/-- The spans of bytes that a span of characters stands for, byte by byte. -/
def byteSpans (first last : Char) : List (UInt8 × UInt8) :=
  if first = last then (bytesOf [first]).map fun b => (b, b)
  else
    let lows := bytesOf [first]
    let highs := bytesOf [last]
    let single (b : UInt8) : UInt8 × UInt8 := (b, b)
    lows.dropLast.map single ++ (lows.getLast?.getD 0, highs.head?.getD 0) :: highs.tail.map single

/-- Why a text is no pattern. -/
inductive PatternFault where
  /-- A closing brace without an opening one. -/
  | unopenedBrace
  /-- An opening brace without a closing one. -/
  | unclosedBrace
  | backwardSpan (first last : Char)
  /-- A backslash at the end. -/
  | loneBackslash
deriving DecidableEq, Repr

/-- The message for a fault. -/
def PatternFault.message : PatternFault → String
  | .unopenedBrace =>
    "unopened alternate group; missing '\x7b' (maybe escape '\x7d' with '[\x7d]'?)"
  | .unclosedBrace =>
    "unclosed alternate group; missing '\x7d' (maybe escape '\x7b' with '[\x7b]'?)"
  | .backwardSpan first last =>
    "invalid range; '" ++ first.toString ++ "' > '" ++ last.toString ++ "'"
  | .loneBackslash => "dangling '\\'"

/-- Reads the spans of a class behind `span`. A hyphen makes the span go on to the next character, or
stands for itself at the end. No span may run backwards. -/
def classSpansFrom (span : Char × Char) (goesOn : Bool) :
    List Char → Except PatternFault (List (Char × Char))
  | [] => .ok (span :: if goesOn then [('-', '-')] else [])
  | c :: rest =>
    if goesOn then
      if c < span.1 then .error (.backwardSpan span.1 c) else classSpansFrom (span.1, c) false rest
    else if c = '-' then classSpansFrom span true rest
    else (classSpansFrom (c, c) false rest).map (span :: ·)

/-- The spans of bytes of a class. -/
def classSpans : List Char → Except PatternFault (List (UInt8 × UInt8))
  | [] => .ok []
  | first :: rest =>
    (classSpansFrom (first, first) false rest).map (·.flatMap fun (low, high) => byteSpans low high)

/-- The tokens of a group in braces, or of a whole pattern, while it is being read. -/
structure TokenGroup where
  /-- The branches that are complete, the last one first. -/
  branches : List (List IgnoreToken) := []
  /-- The branch that is being read, the last token first. -/
  tokens : List IgnoreToken := []

namespace TokenGroup

/-- One more token. -/
def push (group : TokenGroup) (token : IgnoreToken) : TokenGroup :=
  { group with tokens := token :: group.tokens }

/-- One more character that stands for itself. -/
def pushChar (group : TokenGroup) (c : Char) : TokenGroup :=
  (bytesOf [c]).foldl (fun group b => group.push (.byte b)) group

/-- The group with another token in place of its last one. -/
def replaceLast (group : TokenGroup) (token : IgnoreToken) : TokenGroup :=
  { group with tokens := token :: group.tokens.tail }

/-- The group at the start of its next branch. -/
def nextBranch (group : TokenGroup) : TokenGroup :=
  ⟨group.tokens.reverse :: group.branches, []⟩

/-- Whether tokens stand for nothing at all. -/
def isVoid (tokens : List IgnoreToken) : Bool :=
  tokens.all fun token => token matches .anyOf []

/-- The token of a complete group. Void branches do not count. -/
def toToken (group : TokenGroup) : IgnoreToken :=
  .anyOf (group.nextBranch.branches.reverse.filter fun branch => !isVoid branch)

end TokenGroup

/-- How far a pattern has been read. -/
structure PatternReader where
  /-- The innermost group that is not closed. -/
  group : TokenGroup := {}
  /-- The groups around it, from the inside to the outside. -/
  outer : List TokenGroup := []
  /-- The character that was read last. -/
  previous : Option Char := none
  /-- Whether an opening bracket stands for itself, because one before it was not closed. -/
  plainBrackets : Bool := false
  /-- How many of the next characters have been read ahead. -/
  ahead : Nat := 0

namespace PatternReader

/-- The reader with one more token, which takes `ahead` of the next characters. -/
def push (reader : PatternReader) (token : IgnoreToken) (ahead : Nat) : PatternReader :=
  { reader with group := reader.group.push token, ahead }

/-- Whether two stars can be a step of their own behind what was read: behind a slash or, in braces,
behind a brace or a comma. -/
def canStep (reader : PatternReader) : Bool :=
  reader.previous = some '/' ||
    (!reader.outer.isEmpty && (reader.previous = some ',' || reader.previous = some '\x7b'))

/-- Whether the branch ends before the given text. -/
def endsBefore (reader : PatternReader) (next : List Char) : Bool :=
  match next.head? with
  | none => true
  | some c => !reader.outer.isEmpty && (c = ',' || c = '\x7d')

/-- Reads two stars before `next`. If they are no step of their own they are two runs. -/
def readStars (reader : PatternReader) (next : List Char) : PatternReader :=
  let runs := (reader.push .anyRun 1).push .anyRun 1
  let beforeSlash := next.head? = some '/'
  let stepTo (token : IgnoreToken) (ahead : Nat) : PatternReader :=
    let token := match reader.group.tokens.head? with
      | some .leadingSteps => .leadingSteps
      | _ => token
    { reader with group := reader.group.replaceLast token, ahead }
  if reader.group.tokens.isEmpty then
    if next.isEmpty then reader.push .leadingSteps 1
    else if beforeSlash then reader.push .leadingSteps 2
    else runs
  else if !reader.canStep then runs
  else if reader.endsBefore next then stepTo .trailingSteps 1
  else if beforeSlash then stepTo .innerSteps 2
  else runs

/-- Reads a class before `rest`. A bracket that is not closed stands for itself, but what follows must
not hold a span that runs backwards. -/
def readClass (reader : PatternReader) (rest : List Char) : Except PatternFault PatternReader := do
  let negated := rest.head? = some '!' || rest.head? = some '^'
  let opening := if negated then 1 else 0
  match takeClass? (rest.drop opening) with
  | some inside =>
    return reader.push (.oneOf negated (← classSpans inside)) (opening + inside.length + 1)
  | none =>
    let _ ← classSpans (rest.drop opening)
    return { reader with group := reader.group.pushChar '[', plainBrackets := true }

/-- Reads a character, with those that follow it. -/
def read (reader : PatternReader) (c : Char) (rest : List Char) : Except PatternFault PatternReader :=
  match c with
  | '?' => .ok (reader.push .anyByte 0)
  | '*' =>
    match rest with
    | '*' :: next => .ok (reader.readStars next)
    | _ => .ok (reader.push .anyRun 0)
  | '[' =>
    if reader.plainBrackets then .ok { reader with group := reader.group.pushChar c }
    else reader.readClass rest
  | '\x7b' => .ok { reader with group := {}, outer := reader.group :: reader.outer }
  | '\x7d' =>
    match reader.outer with
    | [] => .error .unopenedBrace
    | parent :: outer => .ok { reader with group := parent.push reader.group.toToken, outer }
  | ',' =>
    if reader.outer.isEmpty then .ok { reader with group := reader.group.pushChar c }
    else .ok { reader with group := reader.group.nextBranch }
  | '\\' =>
    match rest with
    | [] => .error .loneBackslash
    | d :: _ => .ok { reader with group := reader.group.pushChar d, ahead := 1 }
  | _ => .ok { reader with group := reader.group.pushChar c }

/-- Reads a text to its end. -/
def readAll (reader : PatternReader) : List Char → Except PatternFault (List IgnoreToken)
  | [] => if reader.outer.isEmpty then .ok reader.group.tokens.reverse else .error .unclosedBrace
  | c :: rest => do
    let reader ←
      if 0 < reader.ahead then .ok { reader with ahead := reader.ahead - 1 } else reader.read c rest
    readAll { reader with previous := some c } rest

end PatternReader

/-- A pattern of an ignore file. -/
structure IgnorePattern where
  tokens : List IgnoreToken
deriving Inhabited, Repr

namespace IgnorePattern

/-- The pattern that a text stands for. -/
def parse (cs : List Char) : Except PatternFault IgnorePattern :=
  (PatternReader.readAll {} cs).map IgnorePattern.mk

/-- Whether tokens have a dot behind their last slash, and only bytes behind that dot. They are given in
reverse. -/
def endsWithExtension : List IgnoreToken → Bool
  | .byte b :: rest => b ≠ slashByte && (b = dotByte || endsWithExtension rest)
  | _ => false

/-- Whether a pattern is plain: it has only bytes behind leading steps, or it ends with an extension. -/
def isPlain (pattern : IgnorePattern) : Bool :=
  let behind := match pattern.tokens with
    | .leadingSteps :: rest => rest
    | tokens => tokens
  (!behind.isEmpty && behind.all (· matches .byte _)) || endsWithExtension pattern.tokens.reverse

/-- Whether a pattern is nested so deeply that it cannot be used. -/
def isTooDeep (pattern : IgnorePattern) : Bool :=
  250 < 1 + greatestDepth pattern.tokens

/-- Whether a path fits a pattern. Two stars alone fit every path. -/
def fits (pattern : IgnorePattern) (path : List UInt8) : Bool :=
  match pattern.tokens with
  | [.leadingSteps] => true
  | tokens => (advanceAll path (.start path) tokens).atEnd

end IgnorePattern

end EnumConverter
