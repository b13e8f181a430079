import EnumConverter.Scan.Name
import EnumConverter.Scope
import EnumConverter.Source.Comment

namespace EnumConverter.Scan

open Source

/-- A comment that belongs to an enumerator. -/
structure TrailingComment where
  text : String
  style : CommentStyle
deriving DecidableEq, Repr

/-- One enumerator as written. -/
structure RawEnumerator where
  name : String
  position : Position
  /-- The comments that may override its values, in order. -/
  trailing : List TrailingComment := []
deriving DecidableEq, Repr

/-- The text of each comment in which overrides are looked for. -/
def RawEnumerator.overrideTexts (enumerator : RawEnumerator) : List String :=
  enumerator.trailing.map fun comment => overrideText comment.text comment.style

/-- One enum definition as written. -/
structure RawEnum where
  /-- The declared name; an enum need not have one. -/
  name : Option String
  /-- The scopes around the definition and the qualifier of its name. -/
  scope : Scope
  /-- Whether the definition says `enum class` or `enum struct`. -/
  isScoped : Bool
  /-- The position of the word `enum`. -/
  position : Position
  /-- The comments that document the definition; empty if there are none. -/
  doc : DocBlock
  enumerators : List RawEnumerator
  /-- Whether the body has its closing brace. -/
  closed : Bool
deriving DecidableEq, Repr

/-- What the tokens of a body so far leave to remember. -/
structure BodyState where
  /-- The enumerators so far, latest first. -/
  enumerators : List RawEnumerator := []
  /-- Whether an identifier would name the next enumerator. -/
  expectsName : Bool := true
  /-- The number of open parentheses, brackets and braces. -/
  depth : Nat := 0
  /-- The number of open template argument lists. -/
  angles : Nat := 0
  /-- The line on which the last comment ended, if it was attached to the latest enumerator. -/
  attachedEnd : Option Nat := none
  /-- Whether the last token that is not a comment was an identifier. -/
  afterIdent : Bool := false
deriving DecidableEq, Repr

namespace BodyState

/-- Whether a comment that starts on `line` belongs to the latest enumerator: it stands behind code on
its line, or it goes on with an attached comment on the line above. -/
def attaches (state : BodyState) (comment : Comment) (line : Nat) : Bool :=
  comment.trailing ||
    (isContinuation comment.text && state.attachedEnd.any fun endLine => line = endLine + 1)

/-- The state after a comment that starts on `line`. -/
def onComment (state : BodyState) (comment : Comment) (line : Nat) : BodyState :=
  match state.enumerators with
  | [] => state
  | latest :: earlier =>
    if state.attaches comment line then
      { state with
        enumerators :=
          { latest with trailing := latest.trailing ++ [⟨comment.text, comment.style⟩] } :: earlier
        attachedEnd := some comment.endLine }
    else { state with attachedEnd := none }

/-- Whether a `<` opens template arguments: it stands right behind a name and is no part of a shift or
a comparison. -/
def opensTemplate (state : BodyState) (next : Option Token) : Bool :=
  state.afterIdent && !next.any fun token => token.isPunct '<' || token.isPunct '='

/-- The state after a token that is no comment and does not end the body, when `next` is the token
behind it. -/
def onCode (state : BodyState) (token : Token) (next : Option Token) : BodyState :=
  let state' : BodyState := match token.kind with
    | .punct '\x7b' | .punct '(' | .punct '[' => { state with depth := state.depth + 1 }
    | .punct '\x7d' | .punct ')' | .punct ']' => { state with depth := state.depth - 1 }
    | .punct '<' =>
      if state.depth = 0 && !state.expectsName && state.opensTemplate next then
        { state with angles := state.angles + 1 }
      else state
    | .punct '>' =>
      if state.depth = 0 then { state with angles := state.angles - 1 } else state
    | .punct ',' =>
      if state.depth = 0 && state.angles = 0 then { state with expectsName := true } else state
    | .ident name =>
      if state.expectsName && state.depth = 0 then
        { state with
          enumerators := { name, position := token.position } :: state.enumerators
          expectsName := false
          attachedEnd := none }
      else state
    | _ => state
  { state' with afterIdent := token.ident?.isSome }

end BodyState

/-- What was read of a body. -/
structure Body where
  enumerators : List RawEnumerator
  /-- Whether the closing brace was found. -/
  closed : Bool
  /-- The tokens behind the body. -/
  rest : List Token

/-- Reads a body behind its opening brace. A semicolon outside brackets means that the closing brace
is missing. -/
def readBody (state : BodyState) : List Token → Body
  | [] => ⟨state.enumerators.reverse, false, []⟩
  | token :: rest =>
    match token.comment? with
    | some comment => readBody (state.onComment comment token.position.line) rest
    | none =>
      if state.depth = 0 && token.isPunct '\x7d' then ⟨state.enumerators.reverse, true, rest⟩
      else if state.depth = 0 && token.isPunct ';' then
        ⟨state.enumerators.reverse, false, token :: rest⟩
      else readBody (state.onCode token (skipComments rest).head?) rest

theorem rest_readBody_suffix (state : BodyState) (tokens : List Token) :
    (readBody state tokens).rest <:+ tokens := by
  fun_induction readBody state tokens with
  | case1 => exact List.suffix_rfl
  | case2 _ _ _ _ _ ih => exact ih.trans (List.suffix_cons ..)
  | case3 => exact List.suffix_cons ..
  | case4 => exact List.suffix_rfl
  | case5 _ _ _ _ _ _ ih => exact ih.trans (List.suffix_cons ..)

end EnumConverter.Scan
