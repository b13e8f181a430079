import EnumConverter.Proofs.Lexer.Partition
import EnumConverter.Proofs.Spelling.Tokens

namespace EnumConverter.Source

open Text

/-- A place of a text when `columns` characters stand before the text on its first line. -/
def Position.beside (columns : Nat) (place : Position) : Position :=
  if place.line = 1 then { place with column := place.column + columns } else place

/-- A kind of token when code ends on its line. -/
def TokenKind.behindCode : TokenKind → TokenKind
  | .comment written => .comment { written with trailing := true }
  | kind => kind

/-- A token of a text when code of `columns` characters stands before the text on its first line. -/
def Token.beside (columns : Nat) (token : Token) : Token where
  kind := if token.position.line = 1 then token.kind.behindCode else token.kind
  position := token.position.beside columns

/-- The cursor when code of `columns` characters stands before the text on its first line. -/
def Cursor.beside (columns : Nat) (here : Cursor) : Cursor where
  position := here.position.beside columns
  fresh := here.fresh
  codeLine := max 1 here.codeLine

@[simp] theorem Position.line_beside (columns : Nat) (place : Position) :
    (place.beside columns).line = place.line := by
  unfold beside
  split <;> rfl

theorem Position.beside_advance (columns : Nat) {place : Position} (hline : 1 ≤ place.line) (c : Char) :
    (place.beside columns).advance c = (place.advance c).beside columns := by
  by_cases hfirst : place.line = 1
  · by_cases hc : c = '\n'
    · simp [beside, advance, hfirst, hc]
    · simp [beside, advance, hfirst, hc, Nat.add_right_comm]
  · have hzero : place.line ≠ 0 := by omega
    by_cases hc : c = '\n'
    · simp [beside, advance, hfirst, hc, hzero]
    · simp [beside, advance, hfirst, hc]

theorem Position.beside_after (columns : Nat) {place : Position} (hline : 1 ≤ place.line)
    (text : List Char) : (place.beside columns).after text = (place.after text).beside columns := by
  induction text generalizing place with
  | nil => rfl
  | cons c text ih =>
    have hnext : 1 ≤ (place.advance c).line := by
      unfold advance
      split <;> simp [hline]
    rw [after_cons, after_cons, beside_advance columns hline, ih hnext]

namespace Cursor

/-- The lines that a cursor knows are lines of the text, as far as it was read. -/
structure OnLines (here : Cursor) : Prop where
  line_pos : 1 ≤ here.position.line
  codeLine_le : here.codeLine ≤ here.position.line

theorem OnLines.past {here : Cursor} (h : here.OnLines) (lexeme : Lexeme) :
    (here.past lexeme).OnLines := by
  have hline := Position.line_after here.position lexeme.text
  obtain ⟨hpos, hcode⟩ := h
  constructor
  · rw [position_past, hline]
    omega
  · rw [position_past, hline]
    unfold Cursor.past
    dsimp only
    split
    all_goals dsimp only
    all_goals omega

variable {here : Cursor} (columns : Nat) (lexeme : Lexeme)

theorem comment_beside (h : here.OnLines) (style : CommentStyle) (text : List Char) (endLine : Nat) :
    TokenKind.comment ((here.beside columns).comment style text endLine) =
      if here.position.line = 1 then (TokenKind.comment (here.comment style text endLine)).behindCode
      else .comment (here.comment style text endLine) := by
  obtain ⟨hpos, hcode⟩ := h
  have htrailing : (here.beside columns).codeLine = (here.beside columns).position.line ↔
      here.position.line = 1 ∨ here.codeLine = here.position.line := by
    change max 1 here.codeLine = (here.position.beside columns).line ↔ _
    rw [Position.line_beside]
    omega
  split
  · rename_i hfirst
    simp [comment, TokenKind.behindCode, htrailing, hfirst]
  · rename_i hfirst
    simp [comment, htrailing, hfirst]

theorem token?_beside (h : here.OnLines) :
    (here.beside columns).token? lexeme = (here.token? lexeme).map (Token.beside columns) := by
  have hend : ((here.beside columns).position.after lexeme.text).line =
      (here.position.after lexeme.text).line := by
    change ((here.position.beside columns).after lexeme.text).line = _
    rw [Position.beside_after columns h.line_pos, Position.line_beside]
  have hline : (here.beside columns).position.line = here.position.line :=
    Position.line_beside columns here.position
  unfold token? kind?
  split
  · rfl
  · rfl
  · rw [Option.map_some, comment_beside columns h, hline]
    rfl
  · rw [Option.map_some, comment_beside columns h, hend]
    rfl
  all_goals
    simp only [Option.map_some, Token.beside, TokenKind.behindCode, ite_self]
    rfl

theorem past_beside (h : here.OnLines) :
    (here.beside columns).past lexeme = (here.past lexeme).beside columns := by
  have hposition : (here.beside columns).position.after lexeme.text =
      (here.position.after lexeme.text).beside columns :=
    Position.beside_after columns h.line_pos lexeme.text
  have hcode : max 1 (here.position.after lexeme.text).line =
      (here.position.after lexeme.text).line := by
    have hpos := h.line_pos
    rw [Position.line_after]
    omega
  unfold past
  rw [hposition]
  dsimp only
  split
  all_goals first
    | rfl
    | simp [beside, hcode]

/-- A text has the same tokens behind code on its first line. -/
theorem tokens_beside (h : here.OnLines) (input : List Char) :
    (here.beside columns).tokens input = (here.tokens input).map (Token.beside columns) := by
  fun_induction Cursor.tokens here input with
  | case1 here => rw [tokens_nil, List.map_nil]
  | case2 here c cs lexeme ih =>
    have hfresh : (here.beside columns).fresh = here.fresh := rfl
    rw [tokens_cons, hfresh, token?_beside columns _ h, past_beside columns _ h, ih (h.past lexeme),
      List.map_append]
    cases here.token? lexeme <;> rfl

end Cursor

/-- Whether a text starts with a directive: of its first line, only blanks stand before a number sign. -/
def opensDirective (text : List Char) : Bool :=
  (text.dropWhile fun c => isBlank c && c ≠ '\n').head? = some '#'

theorem Cursor.tokens_eq_of_opensDirective {here there : Cursor} {text : List Char}
    (h : opensDirective text = false) (hposition : here.position = there.position)
    (hcode : here.codeLine = there.codeLine) : here.tokens text = there.tokens text := by
  induction text generalizing here there with
  | nil => rw [tokens_nil, tokens_nil]
  | cons c cs ih =>
    by_cases hblank : isBlank c = true
    · rw [tokens_blank here hblank, tokens_blank there hblank]
      by_cases hfeed : c = '\n'
      · have hsame : here.pastBlank c = there.pastBlank c := by
          simp [pastBlank, hposition, hcode, hfeed]
        rw [hsame]
      · refine ih ?_ (congrArg (·.advance c) hposition) hcode
        rwa [opensDirective, List.dropWhile_cons_of_pos (by simp [hblank, hfeed])] at h
    · have hsign : c ≠ '#' := by
        rintro rfl
        rw [opensDirective, List.dropWhile_cons_of_neg (by simp [hblank])] at h
        simp at h
      have hnext : Lexeme.next here.fresh c cs = Lexeme.next there.fresh c cs := by
        simp [Lexeme.next, hsign]
      have hopening := Lexeme.opening_next there.fresh c cs
      rw [tokens_cons, tokens_cons, hnext]
      generalize Lexeme.next there.fresh c cs = lexeme at hopening
      have htoken : here.token? lexeme = there.token? lexeme := by
        simp only [token?, kind?, comment, hposition, hcode]
      have hpast : here.past lexeme = there.past lexeme := by
        unfold past
        rw [hposition]
        cases hshape : lexeme.shape with
        | blank => exact absurd (hopening.of_blank hshape).1 hblank
        | directive => exact absurd (hopening.of_directive hshape).2.1 hsign
        | _ => simp [hcode]
      rw [htoken, hpast]

end EnumConverter.Source
