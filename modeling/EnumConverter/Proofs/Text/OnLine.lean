import EnumConverter.Proofs.Text.Line
import Mathlib.Data.List.Infix

namespace EnumConverter.Text

/-- A text is a part of a line of `source`, where lines are counted from one: it has no line feeds, and as
many stand before it in the source as lines precede this one. -/
def OnLine (source : List Char) (line : Nat) (text : List Char) : Prop :=
  '\n' ∉ text ∧ ∃ before after, source = before ++ text ++ after ∧ line = 1 + before.count '\n'

namespace OnLine

variable {source text part : List Char} {line : Nat}

theorem of_isInfix (h : OnLine source line text) (hpart : part <:+: text) : OnLine source line part := by
  obtain ⟨hfeed, before, after, rfl, rfl⟩ := h
  obtain ⟨front, back, rfl⟩ := hpart
  rw [List.mem_append, List.mem_append, not_or, not_or] at hfeed
  refine ⟨hfeed.1.2, before ++ front, back ++ after, by simp, ?_⟩
  rw [List.count_append, List.count_eq_zero.2 hfeed.1.1, Nat.add_zero]

/-- Inside a longer text, lines are counted on from those before. -/
theorem within (h : OnLine text line part) (before after : List Char) :
    OnLine (before ++ text ++ after) (before.count '\n' + line) part := by
  obtain ⟨hfeed, front, back, rfl, rfl⟩ := h
  refine ⟨hfeed, before ++ front, back ++ after, by simp, ?_⟩
  rw [List.count_append]
  omega

theorem bounds (h : OnLine source line text) : 1 ≤ line ∧ line ≤ 1 + source.count '\n' := by
  obtain ⟨-, before, after, rfl, rfl⟩ := h
  rw [List.count_append, List.count_append]
  omega

end OnLine

/-- A piece stands behind as many separators as pieces, and the first one at the start. -/
theorem exists_before_piece {separator : Char} {cs : List Char} {index : Nat} {piece : List Char}
    (h : (splitAt separator cs)[index]? = some piece) :
    ∃ before after, cs = before ++ piece ++ after ∧ before.count separator = index ∧
      (index = 0 → before = []) := by
  fun_induction splitAt separator cs generalizing index piece with
  | case1 =>
    obtain ⟨rfl, rfl⟩ : index = 0 ∧ piece = [] := by
      simpa [List.getElem?_singleton, eq_comm] using h
    exact ⟨[], [], rfl, rfl, fun _ => rfl⟩
  | case2 cs ih =>
    cases index with
    | zero =>
      obtain rfl : [] = piece := by simpa using h
      exact ⟨[], separator :: cs, rfl, rfl, fun _ => rfl⟩
    | succ index =>
      obtain ⟨before, after, rfl, rfl, -⟩ := ih h
      exact ⟨separator :: before, after, rfl, by simp, by simp⟩
  | case3 c cs hc hnone ih => exact absurd hnone (splitAt_ne_nil separator cs)
  | case4 c cs hc first pieces hpieces ih =>
    rw [hpieces] at ih
    cases index with
    | zero =>
      -- The first piece starts where the text does, so that one more character joins it.
      obtain rfl : c :: first = piece := by simpa using h
      obtain ⟨before, after, rfl, -, hstart⟩ := @ih 0 first rfl
      obtain rfl := hstart rfl
      exact ⟨[], after, rfl, rfl, fun _ => rfl⟩
    | succ index =>
      obtain ⟨before, after, rfl, hcount, -⟩ := @ih (index + 1) piece h
      exact ⟨c :: before, after, rfl, by rw [List.count_cons_of_ne hc, hcount], by simp⟩

theorem onLine_splitAt {cs : List Char} {index : Nat} {piece : List Char}
    (h : (splitAt '\n' cs)[index]? = some piece) : OnLine cs (1 + index) piece := by
  have hfeed := notMem_of_mem_splitAt cs piece (List.mem_of_getElem? h)
  obtain ⟨before, after, hcs, hcount, -⟩ := exists_before_piece h
  exact ⟨hfeed, before, after, hcs, by rw [hcount]⟩

theorem dropReturn_isPrefix (line : List Char) : dropReturn line <+: line := by
  unfold dropReturn
  cases hdrop : dropEnd? ['\r'] line with
  | none => exact List.prefix_rfl
  | some front => exact ⟨['\r'], append_of_dropEnd? hdrop⟩

/-- The lines that a text is made of stand on its lines, one after the other. -/
theorem onLine_lines {cs : List Char} {index : Nat} {line : List Char}
    (h : (lines cs)[index]? = some line) : OnLine cs (1 + index) line := by
  obtain ⟨ended, last, hpieces⟩ := (List.eq_nil_or_concat' (splitAt '\n' cs)).resolve_left
    (splitAt_ne_nil '\n' cs)
  have hpiece {piece : List Char} (hindex : (ended ++ [last])[index]? = some piece)
      (hline : line <+: piece) : OnLine cs (1 + index) line :=
    (onLine_splitAt (hpieces ▸ hindex)).of_isInfix hline.isInfix
  rw [lines_of_splitAt hpieces] at h
  obtain hlt | hge := Nat.lt_or_ge index ended.length
  · rw [List.getElem?_append_left (by simpa using hlt), List.getElem?_map] at h
    obtain ⟨piece, hindex, rfl⟩ := Option.map_eq_some_iff.1 h
    exact hpiece (by rw [List.getElem?_append_left hlt, hindex]) (dropReturn_isPrefix piece)
  · rw [List.getElem?_append_right (by simpa using hge), List.length_map] at h
    split at h
    · simp at h
    · exact hpiece (by rw [List.getElem?_append_right hge, h]) List.prefix_rfl

theorem trimEnd_isPrefix (cs : List Char) : trimEnd cs <+: cs := by
  have hsuffix : cs.reverse.dropWhile isBlank <:+ cs.reverse := List.dropWhile_suffix isBlank
  rw [← List.reverse_prefix, List.reverse_reverse] at hsuffix
  exact hsuffix

theorem trim_isInfix (cs : List Char) : trim cs <:+: cs :=
  (trimEnd_isPrefix _).isInfix.trans (List.dropWhile_suffix isBlank).isInfix

end EnumConverter.Text
