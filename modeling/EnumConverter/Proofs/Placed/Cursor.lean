import EnumConverter.Proofs.Lexer.Partition
import EnumConverter.Proofs.Placed.Name
import EnumConverter.Proofs.Spelling.Tokens

namespace EnumConverter

open Source

namespace Placement

theorem position_advance (lines : Nat) (place : Position) (c : Char) :
    (down lines).position (place.advance c) = ((down lines).position place).advance c := by
  unfold Position.advance Placement.position
  split
  · simp [down, Nat.add_right_comm]
  · rfl

theorem position_after (lines : Nat) (place : Position) (text : List Char) :
    (down lines).position (place.after text) = ((down lines).position place).after text := by
  induction text generalizing place with
  | nil => rfl
  | cons c text ih => rw [Position.after_cons, Position.after_cons, ih, position_advance]

end Placement

namespace Source.Cursor

/-- The cursor further down. Where there was no code yet, there is none. -/
def down (here : Cursor) (lines : Nat) : Cursor where
  position := (Placement.down lines).position here.position
  fresh := here.fresh
  codeLine := if here.codeLine = 0 then 0 else here.codeLine + lines

variable {here : Cursor} (lines : Nat) (lexeme : Lexeme)

theorem comment_down (hline : 1 ≤ here.position.line) (style : CommentStyle) (text : List Char)
    (endLine : Nat) : (here.down lines).comment style text (endLine + lines) =
      (Placement.down lines).comment (here.comment style text endLine) := by
  have htrailing : ((here.down lines).codeLine = (here.down lines).position.line) ↔
      (here.codeLine = here.position.line) := by
    change (if here.codeLine = 0 then 0 else here.codeLine + lines) = here.position.line + lines ↔ _
    split <;> omega
  simp [comment, Placement.comment, Placement.down, htrailing]

theorem kind?_down (hline : 1 ≤ here.position.line) :
    (here.down lines).kind? lexeme = (here.kind? lexeme).map (Placement.down lines).kind := by
  unfold kind?
  split
  · rfl
  · rfl
  · exact congrArg (some ∘ TokenKind.comment)
      (comment_down lines hline .line (Text.trimEnd lexeme.text) here.position.line)
  · have hend : ((here.down lines).position.after lexeme.text).line =
        (here.position.after lexeme.text).line + lines := by
      change (((Placement.down lines).position here.position).after lexeme.text).line = _
      rw [← Placement.position_after]
      rfl
    rw [hend]
    exact congrArg (some ∘ TokenKind.comment) (comment_down lines hline .block lexeme.text _)
  all_goals rfl

theorem token?_down (hline : 1 ≤ here.position.line) :
    (here.down lines).token? lexeme = (here.token? lexeme).map (Placement.down lines).token := by
  rw [token?, token?, kind?_down lines lexeme hline, Option.map_map, Option.map_map]
  rfl

theorem line_past (here : Cursor) (lexeme : Lexeme) :
    here.position.line ≤ (here.past lexeme).position.line := by
  rw [position_past, Position.line_after]
  exact Nat.le_add_right ..

theorem past_down (hline : 1 ≤ here.position.line) :
    (here.down lines).past lexeme = (here.past lexeme).down lines := by
  have hposition : (here.down lines).position.after lexeme.text =
      (Placement.down lines).position (here.position.after lexeme.text) :=
    (Placement.position_after ..).symm
  have hcode : (here.position.after lexeme.text).line ≠ 0 := by
    rw [Position.line_after]
    omega
  unfold past
  rw [hposition]
  dsimp only
  split
  all_goals first
    | rfl
    | simp [down, hcode, Placement.position, Placement.down]

/-- A text has the same tokens further down. -/
theorem tokens_down (hline : 1 ≤ here.position.line) (input : List Char) :
    (here.down lines).tokens input = (Placement.down lines).tokens (here.tokens input) := by
  fun_induction Cursor.tokens here input with
  | case1 here => rw [tokens_nil, Placement.tokens_nil]
  | case2 here c cs lexeme ih =>
    have hfresh : (here.down lines).fresh = here.fresh := rfl
    rw [tokens_cons, hfresh, token?_down lines _ hline, past_down lines _ hline,
      ih (Nat.le_trans hline (line_past here lexeme)), Placement.tokens, Placement.tokens,
      List.map_append]
    cases here.token? lexeme <;> rfl

end Source.Cursor

end EnumConverter
