import Mathlib.Data.List.Induction
import EnumConverter.Source.Token

namespace EnumConverter.Source

/-- The characters of the line on which a text ends, as far as the text goes. -/
def lastLine (text : List Char) : List Char :=
  (text.reverse.takeWhile (· ≠ '\n')).reverse

@[simp] theorem lastLine_nil : lastLine [] = [] := rfl

@[simp] theorem lastLine_concat_lineFeed (text : List Char) : lastLine (text ++ ['\n']) = [] := by
  simp [lastLine]

theorem lastLine_concat (text : List Char) {c : Char} (hc : c ≠ '\n') :
    lastLine (text ++ [c]) = lastLine text ++ [c] := by
  simp [lastLine, hc]

theorem lastLine_of_notMem {text : List Char} (h : '\n' ∉ text) : lastLine text = text := by
  induction text using List.reverseRecOn with
  | nil => rfl
  | append_singleton text c ih =>
    rw [List.mem_append, not_or, List.mem_singleton] at h
    rw [lastLine_concat text (Ne.symm h.2), ih h.1]

/-- The line of an offset: one more than the line feeds before it. -/
def lineAt (source : List Char) (offset : Nat) : Nat :=
  1 + (source.take offset).count '\n'

/-- The column of an offset: one more than the characters since the last line feed. -/
def columnAt (source : List Char) (offset : Nat) : Nat :=
  1 + (lastLine (source.take offset)).length

/-- The position of an offset. -/
def positionAt (source : List Char) (offset : Nat) : Position :=
  ⟨lineAt source offset, columnAt source offset⟩

/-- Whether a place comes before another one, in reading order. -/
def Position.Before (here there : Position) : Prop :=
  here.line < there.line ∨ here.line = there.line ∧ here.column < there.column

/-- The position that reading keeps is the one that counting gives. -/
theorem start_after_eq (text : List Char) :
    Position.start.after text = ⟨1 + text.count '\n', 1 + (lastLine text).length⟩ := by
  induction text using List.reverseRecOn with
  | nil => rfl
  | append_singleton text c ih =>
    rw [Position.after_append, ih]
    by_cases hc : c = '\n'
    · subst hc
      simp [Position.advance]
      omega
    · simp [Position.advance, hc, lastLine_concat text hc]
      omega

theorem start_after_take (source : List Char) (offset : Nat) :
    Position.start.after (source.take offset) = positionAt source offset :=
  start_after_eq _

theorem Position.Before.trans {a b c : Position} (hab : a.Before b) (hbc : b.Before c) :
    a.Before c := by
  unfold Position.Before at *
  omega

/-- Every character moves the position forward. -/
theorem Position.before_after (here : Position) {text : List Char} (htext : text ≠ []) :
    here.Before (here.after text) := by
  have hstep (place : Position) (c : Char) : place.Before (place.advance c) := by
    unfold Position.advance Position.Before
    split <;> simp
  cases text with
  | nil => exact absurd rfl htext
  | cons c text =>
    induction text generalizing here c with
    | nil => exact hstep here c
    | cons d text ih => exact (hstep here c).trans (ih (here.advance c) d (by simp))

/-- Later offsets have later positions. -/
theorem positionAt_before {source : List Char} {first second : Nat} (hlt : first < second)
    (hsecond : second ≤ source.length) :
    (positionAt source first).Before (positionAt source second) := by
  have hsplit : source.take second = source.take first ++ (source.take second).drop first := by
    have htake : (source.take second).take first = source.take first := by
      rw [List.take_take, Nat.min_eq_left (Nat.le_of_lt hlt)]
    rw [← htake, List.take_append_drop]
  have hmore : (source.take second).drop first ≠ [] := by
    intro hempty
    have hlength := congrArg List.length hempty
    simp only [List.length_drop, List.length_take, List.length_nil] at hlength
    omega
  rw [← start_after_take, ← start_after_take, hsplit, Position.after_append]
  exact Position.before_after _ hmore

end EnumConverter.Source
