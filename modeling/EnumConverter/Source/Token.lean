import EnumConverter.Source.Lexeme
import EnumConverter.Text.Line

namespace EnumConverter.Source

open Text

/-- A place in a source text. -/
structure Position where
  line : Nat
  column : Nat
deriving DecidableEq, Repr, Inhabited

namespace Position

/-- The place of the first character of a text. -/
def start : Position := ⟨1, 1⟩

/-- The place right after a character that stands here. -/
def advance (here : Position) (c : Char) : Position :=
  if c = '\n' then ⟨here.line + 1, 1⟩ else ⟨here.line, here.column + 1⟩

/-- The place right after a text that starts here. -/
def after (here : Position) (text : List Char) : Position :=
  text.foldl advance here

/-- Whether this place is not behind another one, in reading order. -/
def notAfter (here there : Position) : Bool :=
  here.line < there.line || (here.line == there.line && here.column ≤ there.column)

@[simp] theorem after_nil (here : Position) : here.after [] = here := rfl

@[simp] theorem after_cons (here : Position) (c : Char) (text : List Char) :
    here.after (c :: text) = (here.advance c).after text := rfl

theorem after_append (here : Position) (first second : List Char) :
    here.after (first ++ second) = (here.after first).after second := by
  simp [after, List.foldl_append]

end Position

/-- How a comment is delimited. -/
inductive CommentStyle where
  /-- Two slashes and the rest of the line. -/
  | line
  /-- A slash and a star, up to a star and a slash. -/
  | block
deriving DecidableEq, Repr, Inhabited

/-- A comment as written. -/
structure Comment where
  /-- The text with its delimiters. -/
  text : String
  style : CommentStyle
  /-- Whether code ends on the line on which the comment starts. -/
  trailing : Bool
  /-- The line on which the comment ends. -/
  endLine : Nat
deriving DecidableEq, Repr

/-- What a token is. -/
inductive TokenKind where
  /-- An identifier or a keyword. -/
  | ident (name : String)
  | pathSeparator
  | punct (c : Char)
  | string
  | character
  | number
  | comment (comment : Comment)
deriving DecidableEq, Repr

/-- A token and the position of its first character. -/
structure Token where
  kind : TokenKind
  position : Position
deriving DecidableEq, Repr

namespace Token

/-- The comment that a token is, if it is one. -/
def comment? (token : Token) : Option Comment :=
  match token.kind with
  | .comment comment => some comment
  | _ => none

/-- Whether a token is a comment. -/
def isComment (token : Token) : Bool :=
  token.comment?.isSome

/-- The name of a token that is an identifier. -/
def ident? (token : Token) : Option String :=
  match token.kind with
  | .ident name => some name
  | _ => none

/-- Whether a token is the given word. -/
def isIdent (token : Token) (word : String) : Bool :=
  token.kind = .ident word

/-- Whether a token is the given punctuation character. -/
def isPunct (token : Token) (c : Char) : Bool :=
  token.kind = .punct c

end Token

/-- Where reading stands in a source text, and what the tokens so far leave to remember. -/
structure Cursor where
  position : Position := .start
  /-- Whether nothing but blanks and directives were read on the current line. -/
  fresh : Bool := true
  /-- The line on which the last token that is not a comment ended, and zero before the first. -/
  codeLine : Nat := 0
deriving DecidableEq, Repr

namespace Cursor

/-- The comment with the given text that starts here. -/
def comment (here : Cursor) (style : CommentStyle) (text : List Char) (endLine : Nat) : Comment where
  text := String.ofList text
  style := style
  trailing := here.codeLine = here.position.line
  endLine := endLine

/-- The kind of token that a lexeme is when it starts here. Blanks and directives are none. -/
def kind? (here : Cursor) (lexeme : Lexeme) : Option TokenKind :=
  match lexeme.shape with
  | .blank | .directive => none
  | .lineComment => some (.comment (here.comment .line (trimEnd lexeme.text) here.position.line))
  | .blockComment =>
    some (.comment (here.comment .block lexeme.text (here.position.after lexeme.text).line))
  | .identifier => some (.ident (String.ofList lexeme.text))
  | .pathSeparator => some .pathSeparator
  | .punctuation c => some (.punct c)
  | .string => some .string
  | .character => some .character
  | .number => some .number

/-- The token that a lexeme is when it starts here. -/
def token? (here : Cursor) (lexeme : Lexeme) : Option Token :=
  (here.kind? lexeme).map (⟨·, here.position⟩)

/-- Where reading stands after a lexeme. -/
def past (here : Cursor) (lexeme : Lexeme) : Cursor :=
  let position := here.position.after lexeme.text
  match lexeme.shape with
  | .blank => { here with position, fresh := here.fresh || lexeme.text = ['\n'] }
  | .directive => { here with position }
  | .lineComment | .blockComment => { here with position, fresh := false }
  | _ => { position, fresh := false, codeLine := position.line }

/-- The tokens of a text that is read from here. -/
def tokens (here : Cursor) : List Char → List Token
  | [] => []
  | c :: cs =>
    let lexeme := Lexeme.next here.fresh c cs
    (here.token? lexeme).toList ++ (here.past lexeme).tokens lexeme.rest
termination_by input => input.length
decreasing_by exact Lexeme.length_rest_next_lt _ _ _

@[simp] theorem tokens_nil (here : Cursor) : here.tokens [] = [] := by
  rw [tokens]

theorem tokens_cons (here : Cursor) (c : Char) (cs : List Char) :
    here.tokens (c :: cs) = (here.token? (.next here.fresh c cs)).toList ++
      (here.past (.next here.fresh c cs)).tokens (Lexeme.next here.fresh c cs).rest := by
  rw [tokens]

end Cursor

/-- All tokens of a source text, in order. -/
def tokenize (source : String) : List Token :=
  ({} : Cursor).tokens source.toList

end EnumConverter.Source
