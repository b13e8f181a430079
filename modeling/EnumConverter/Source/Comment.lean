import EnumConverter.Source.Token

namespace EnumConverter.Source

open Text

/-- Drops the first character of a text if it is one of `flavours`. -/
def dropFlavour (flavours : List Char) : List Char → List Char
  | [] => []
  | c :: cs => if c ∈ flavours then cs else c :: cs

/-- A comment without its delimiters. One character right behind the opening delimiter that makes it
a documentation comment goes as well. -/
def commentBody : List Char → List Char
  | '/' :: '/' :: rest => dropFlavour ['/', '!'] rest
  | '/' :: '*' :: rest => dropFlavour ['*', '!'] ((dropEnd? ['*', '/'] rest).getD rest)
  | text => text

/-- A line of a comment without the blanks around it and, in a block, without the stars before it. -/
def contentOfLine (style : CommentStyle) (line : List Char) : List Char :=
  match style with
  | .line => trim line
  | .block => trim ((trim line).dropWhile (· = '*'))

/-- A line of text and its number in the source. -/
structure ContentLine where
  line : Nat
  text : String
deriving DecidableEq, Repr

/-- The content of a comment that starts on `firstLine`, line by line. -/
def contentLines (text : String) (style : CommentStyle) (firstLine : Nat) : List ContentLine :=
  (lines (commentBody text.toList)).mapIdx fun index line =>
    ⟨firstLine + index, String.ofList (contentOfLine style line)⟩

/-- Opens a comment that goes on with the overrides of the comment above it. -/
def continuationMark : Char := '<'

/-- Whether a comment goes on with the one above it. -/
def isContinuation (text : String) : Bool :=
  (trimStart (commentBody text.toList)).head? = some continuationMark

/-- The text of a comment in which overrides are looked for: its lines as one, without the
continuation mark. -/
def overrideText (text : String) (style : CommentStyle) : String :=
  let content := (lines (commentBody text.toList)).map (contentOfLine style)
  let joined := join [' '] (content.filter (! ·.isEmpty))
  String.ofList (trim (dropFlavour [continuationMark] joined))

/-- A comment that documents what follows it. -/
structure DocComment where
  text : String
  style : CommentStyle
  /-- The line on which the comment starts. -/
  line : Nat
  /-- The line on which the comment ends. -/
  endLine : Nat
deriving DecidableEq, Repr

/-- A run of comments that is read as one piece of documentation, in source order. -/
abbrev DocBlock := List DocComment

namespace DocBlock

/-- The line on which a block starts, and zero for the empty block. -/
def line (block : DocBlock) : Nat :=
  (block.head?.map (·.line)).getD 0

/-- The line on which a block ends, and zero for the empty block. -/
def endLine (block : DocBlock) : Nat :=
  (block.getLast?.map (·.endLine)).getD 0

/-- The block with one more comment, which starts on `line`. -/
def push (block : DocBlock) (comment : Comment) (line : Nat) : DocBlock :=
  block ++ [⟨comment.text, comment.style, line, comment.endLine⟩]

/-- The content of all comments of a block, line by line. -/
def contentLines (block : DocBlock) : List ContentLine :=
  block.flatMap fun comment => Source.contentLines comment.text comment.style comment.line

/-- The block after one more comment was met. A trailing comment documents what stands before it, so
it ends the block, and a comment after a gap starts a new one. -/
def observe (block : DocBlock) (comment : Comment) (line : Nat) : DocBlock :=
  if comment.trailing then []
  else if !block.isEmpty && line > block.endLine + 1 then push [] comment line
  else block.push comment line

end DocBlock

end EnumConverter.Source
