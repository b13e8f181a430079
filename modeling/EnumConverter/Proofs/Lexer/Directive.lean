import EnumConverter.Proofs.Lexer.Offset
import EnumConverter.Source.Lexeme
import EnumConverter.Text.CharClass

namespace EnumConverter.Source

open Text

/-- Whether a line feed right behind a text is escaped: the text ends with a backslash, or with a
backslash and a carriage return. -/
def EndsEscaped (text : List Char) : Prop :=
  ['\\'] <:+ text ∨ ['\\', '\r'] <:+ text

/-- Every line feed of the second text is escaped when the text stands behind the first one. -/
def LineFeedsEscaped (before : List Char) : List Char → Prop
  | [] => True
  | c :: cs => (c = '\n' → EndsEscaped before) ∧ LineFeedsEscaped (before ++ [c]) cs

instance (text : List Char) : Decidable (EndsEscaped text) :=
  inferInstanceAs (Decidable (['\\'] <:+ text ∨ ['\\', '\r'] <:+ text))

instance LineFeedsEscaped.decidable : ∀ before text, Decidable (LineFeedsEscaped before text)
  | _, [] => isTrue trivial
  | before, c :: cs =>
    have := decidable (before ++ [c]) cs
    inferInstanceAs (Decidable ((c = '\n' → EndsEscaped before) ∧ LineFeedsEscaped (before ++ [c]) cs))

/-- An escaped line feed, seen from the text before it. -/
theorem LineFeedsEscaped.of_split {before head tail : List Char}
    (h : LineFeedsEscaped before (head ++ '\n' :: tail)) : EndsEscaped (before ++ head) := by
  induction head generalizing before with
  | nil => simpa using h.1 rfl
  | cons c head ih => simpa using ih h.2

/-- An escaped line feed, by its offset. -/
theorem LineFeedsEscaped.endsEscaped_take {before text : List Char} (h : LineFeedsEscaped before text)
    (rest : List Char) {offset : Nat} (hlower : before.length ≤ offset)
    (hupper : offset < before.length + text.length)
    (hfeed : (before ++ (text ++ rest))[offset]? = some '\n') :
    EndsEscaped ((before ++ (text ++ rest)).take offset) := by
  obtain ⟨index, rfl⟩ := Nat.exists_eq_add_of_le hlower
  have hindex : index < text.length := by omega
  have hget : text[index]? = some '\n' := by
    rw [List.getElem?_append_right (by omega), List.getElem?_append_left (by omega)] at hfeed
    simpa using hfeed
  have hsplit : text = text.take index ++ '\n' :: text.drop (index + 1) := by
    obtain ⟨hlt, hchar⟩ := List.getElem?_eq_some_iff.1 hget
    rw [← hchar, List.getElem_cons_drop, List.take_append_drop]
  have htake : (before ++ (text ++ rest)).take (before.length + index) = before ++ text.take index := by
    rw [List.take_length_add_append, List.take_append_of_le_length (by omega)]
  rw [hsplit] at h
  rw [htake]
  exact h.of_split

theorem backslash_suffix_concat {text : List Char} {c : Char} :
    ['\\'] <:+ text ++ [c] ↔ c = '\\' := by
  constructor
  · rintro ⟨head, hhead⟩
    obtain ⟨-, hc⟩ := List.append_inj' hhead rfl
    simpa using hc.symm
  · rintro rfl
    exact List.suffix_append ..

theorem endsEscaped_concat {text : List Char} {c : Char} :
    EndsEscaped (text ++ [c]) ↔ c = '\\' ∨ c = '\r' ∧ ['\\'] <:+ text := by
  unfold EndsEscaped
  rw [backslash_suffix_concat]
  constructor
  · rintro (h | ⟨head, hhead⟩)
    · exact .inl h
    · have hsplit : (head ++ ['\\']) ++ ['\r'] = text ++ [c] := by simpa using hhead
      obtain ⟨htext, hc⟩ := List.append_inj' hsplit rfl
      exact .inr ⟨by simpa using hc.symm, head, htext⟩
  · rintro (h | ⟨rfl, head, rfl⟩)
    · exact .inl h
    · exact .inr ⟨head, by simp⟩

/-- What holds of the text `before` between two looks ahead, when `cs` is left to read: no backslash of
`before` escapes a line feed of `cs`. -/
structure Settled (before cs : List Char) : Prop where
  lineFeed : cs.head? = some '\n' → ¬ EndsEscaped before
  lineEnd : ['\r', '\n'] <+: cs → ¬ ['\\'] <:+ before

theorem settled_concat (before cs : List Char) {c : Char} (hback : c ≠ '\\') (hreturn : c ≠ '\r') :
    Settled (before ++ [c]) cs := by
  constructor
  · simp [endsEscaped_concat, hback, hreturn]
  · exact fun _ hsuffix => hback (backslash_suffix_concat.1 hsuffix)

/-- Looking ahead from one more character finds nothing to escape. -/
theorem Settled.concat {before cs : List Char} {c : Char} (hbefore : Settled before (c :: cs))
    (hfeed : ∀ tail, c = '\\' → cs ≠ '\n' :: tail)
    (hend : ∀ tail, c = '\\' → cs ≠ '\r' :: '\n' :: tail) : Settled (before ++ [c]) cs := by
  constructor
  · intro hhead hescaped
    obtain ⟨tail, rfl⟩ : ∃ tail, cs = '\n' :: tail := by
      cases cs with
      | nil => simp at hhead
      | cons d tail => exact ⟨tail, by simpa using hhead⟩
    obtain hc | ⟨rfl, hback⟩ := endsEscaped_concat.1 hescaped
    · exact hfeed tail hc rfl
    · exact hbefore.lineEnd ⟨tail, rfl⟩ hback
  · rintro ⟨tail, rfl⟩ hback
    exact hend tail (backslash_suffix_concat.1 hback) rfl

/-- The line feeds inside a directive are escaped, and the one behind it is not. -/
theorem directiveRest_lineFeeds {before cs : List Char} (hbefore : Settled before cs) :
    LineFeedsEscaped before (directiveRest cs).taken ∧
      ((directiveRest cs).rest = [] ∨ (directiveRest cs).rest.head? = some '\n' ∧
        ¬ EndsEscaped (before ++ (directiveRest cs).taken)) := by
  fun_induction directiveRest cs generalizing before with
  | case1 => simp [LineFeedsEscaped]
  | case2 cs => simpa [LineFeedsEscaped] using hbefore.lineFeed rfl
  | case3 cs ih =>
    have hsettled : Settled (before ++ ['\\'] ++ ['\n']) cs :=
      settled_concat _ cs (by decide) (by decide)
    obtain ⟨hinside, hbehind⟩ := ih hsettled
    refine ⟨?_, by simpa [Cut.extend] using hbehind⟩
    exact ⟨fun h => absurd h (by decide), fun _ => .inl ⟨before, rfl⟩, hinside⟩
  | case4 cs ih =>
    have hsettled : Settled (before ++ ['\\'] ++ ['\r'] ++ ['\n']) cs :=
      settled_concat _ cs (by decide) (by decide)
    obtain ⟨hinside, hbehind⟩ := ih hsettled
    refine ⟨?_, by simpa [Cut.extend] using hbehind⟩
    exact ⟨fun h => absurd h (by decide), fun h => absurd h (by decide),
      fun _ => .inr ⟨before, by simp⟩, hinside⟩
  | case5 c cs hlineFeed hfeed hend ih =>
    obtain ⟨hinside, hbehind⟩ := ih (hbefore.concat hfeed hend)
    refine ⟨⟨?_, hinside⟩, by simpa [Cut.extend] using hbehind⟩
    exact fun hc => absurd hc hlineFeed

end EnumConverter.Source
