namespace EnumConverter

/-- What can go wrong in reading by index. -/
inductive IndexFault where
  /-- An index or a part does not lie in the list. -/
  | outOfRange
  /-- A count falls below zero. -/
  | belowZero
  /-- A loop does not move its index. -/
  | stuck
deriving DecidableEq, Repr

/-- A result, or the fault on the way to it. -/
abbrev Checked (α : Type) := Except IndexFault α

namespace Checked

variable {α β : Type}

/-- The element at an index. -/
def item (xs : List α) (index : Nat) : Checked α :=
  match xs[index]? with
  | some x => .ok x
  | none => .error .outOfRange

/-- The elements from one index up to another. -/
def slice (xs : List α) (start stop : Nat) : Checked (List α) :=
  if start ≤ stop ∧ stop ≤ xs.length then .ok ((xs.take stop).drop start) else .error .outOfRange

/-- The count below `count`. -/
def decrease : (count : Nat) → Checked Nat
  | 0 => .error .belowZero
  | count + 1 => .ok count

@[simp] theorem ok_bind (a : α) (f : α → Checked β) : (Except.ok a : Checked α) >>= f = f a := rfl

@[simp] theorem pure_eq (a : α) : (pure a : Checked α) = .ok a := rfl

@[simp] theorem map_ok (f : α → β) (a : α) : f <$> (Except.ok a : Checked α) = .ok (f a) := rfl

end Checked

section Offset

variable {α : Type} {xs rest taken : List α} {x : α}

/-- The index in `xs` at which its final part `rest` starts. -/
def offset (xs rest : List α) : Nat :=
  xs.length - rest.length

/-- The index at which a final part starts, if it is not empty. -/
def cursor? (xs rest : List α) : Option Nat :=
  if rest.isEmpty then none else some (offset xs rest)

@[simp] theorem offset_self (xs : List α) : offset xs xs = 0 := Nat.sub_self _

@[simp] theorem offset_nil (xs : List α) : offset xs [] = xs.length := rfl

@[simp] theorem cursor?_nil (xs : List α) : cursor? xs [] = none := rfl

@[simp] theorem cursor?_cons (xs rest : List α) (x : α) :
    cursor? xs (x :: rest) = some (offset xs (x :: rest)) := rfl

theorem drop_offset (h : rest <:+ xs) : xs.drop (offset xs rest) = rest :=
  (List.suffix_iff_eq_drop.1 h).symm

theorem offset_append (h : taken ++ rest <:+ xs) :
    offset xs rest = offset xs (taken ++ rest) + taken.length := by
  have hlength := h.length_le
  simp only [offset, List.length_append] at hlength ⊢
  omega

theorem offset_cons (h : x :: rest <:+ xs) : offset xs (x :: rest) + 1 = offset xs rest :=
  (offset_append (show [x] ++ rest <:+ xs from h)).symm

theorem offset_le (xs rest : List α) : offset xs rest ≤ xs.length := Nat.sub_le ..

theorem offset_lt (h : x :: rest <:+ xs) : offset xs (x :: rest) < xs.length := by
  have hlength := h.length_le
  simp only [offset, List.length_cons] at hlength ⊢
  omega

theorem offset_lt_offset {other : List α} (h : rest <:+ xs) (hlength : other.length < rest.length) :
    offset xs rest < offset xs other := by
  have hbound := h.length_le
  simp only [offset]
  omega

@[simp] theorem offset_append_right (before rest : List α) :
    offset (before ++ rest) rest = before.length := by
  simp [offset]

/-- A final part of a list that is not the whole list leaves out its first element. -/
theorem suffix_of_length_lt (h : rest <:+ x :: xs) (hlt : rest.length < (x :: xs).length) : rest <:+ xs :=
  (List.suffix_cons_iff.1 h).resolve_left fun heq => absurd hlt (by simp [heq])

theorem getElem?_offset (h : rest <:+ xs) : xs[offset xs rest]? = rest.head? := by
  rw [← List.head?_drop, drop_offset h]

theorem item_offset (h : x :: rest <:+ xs) : Checked.item xs (offset xs (x :: rest)) = .ok x := by
  rw [Checked.item, getElem?_offset h, List.head?_cons]

theorem slice_offset (h : taken ++ rest <:+ xs) :
    Checked.slice xs (offset xs (taken ++ rest)) (offset xs rest) = .ok taken := by
  have hstop := offset_append h
  have hle := offset_le xs rest
  rw [Checked.slice, if_pos ⟨by omega, hle⟩, hstop, List.take_add, List.drop_append, drop_offset h]
  have hlength := h.length_le
  simp [offset]

/-- The elements behind the one at hand. -/
theorem slice_behind (h : x :: rest <:+ xs) :
    Checked.slice xs (offset xs (x :: rest) + 1) xs.length = .ok rest := by
  have hrest : rest ++ [] <:+ xs := by simpa using (List.suffix_cons x rest).trans h
  simpa [offset_cons h] using slice_offset hrest

/-- The element behind some that were read. -/
theorem peek_append (h : taken ++ rest <:+ xs) :
    xs[offset xs (taken ++ rest) + taken.length]? = rest.head? := by
  rw [← offset_append h, getElem?_offset ((List.suffix_append ..).trans h)]

/-- The element behind the one at hand. -/
theorem peek_offset (h : x :: rest <:+ xs) : xs[offset xs (x :: rest) + 1]? = rest.head? :=
  peek_append (show [x] ++ rest <:+ xs from h)

/-- The first element that passes a test stands behind all that fail it in front. -/
theorem findIdx?_eq_cursor? (test : α → Bool) (xs : List α) :
    xs.findIdx? test = cursor? xs (xs.dropWhile (!test ·)) := by
  induction xs with
  | nil => rfl
  | cons x xs ih =>
    by_cases hx : test x
    · simp [List.findIdx?_cons, hx]
    · have hrest : xs.dropWhile (!test ·) <:+ xs := List.dropWhile_suffix _
      rw [List.findIdx?_cons, if_neg hx, ih, List.dropWhile_cons_of_pos (by simp [hx])]
      cases hdrop : xs.dropWhile (!test ·) with
      | nil => rfl
      | cons y rest =>
        have hlength := (hdrop ▸ hrest).length_le
        simp only [cursor?_cons, Option.map_some, offset, List.length_cons] at hlength ⊢
        congr 1
        omega

end Offset

/-- What a round of a loop gives: the result of the loop, or the state and the index of the next
round. -/
inductive Round (σ β : Type) where
  | done (result : β)
  | next (state : σ) (index : Nat)

section Loop

variable {α σ β : Type} (xs : List α) (atEnd : σ → Nat → Checked β)
  (round : σ → Nat → α → Checked (Round σ β))

/-- A loop over the elements of a list. Each round sees the element at its index and has to move the
index forward. Behind the last element the loop ends with `atEnd`. -/
def loop (state : σ) (index : Nat) : Checked β :=
  match _h : xs[index]? with
  | none => atEnd state index
  | some x => do
    match ← round state index x with
    | .done result => .ok result
    | .next state index' =>
      if _h : index < index' then loop state index' else .error .stuck
termination_by xs.length - index
decreasing_by grind

variable {xs atEnd round} {state state' : σ} {rest rest' : List α} {x : α}

theorem loop_nil : loop xs atEnd round state (offset xs []) = atEnd state (offset xs []) := by
  rw [loop]
  split
  · rfl
  · rename_i hget
    simp at hget

theorem loop_done {result : β} (h : x :: rest <:+ xs)
    (hround : round state (offset xs (x :: rest)) x = .ok (.done result)) :
    loop xs atEnd round state (offset xs (x :: rest)) = .ok result := by
  rw [loop]
  split
  · rename_i hget
    simp [getElem?_offset h] at hget
  · rename_i y hget
    obtain rfl : x = y := by simpa [getElem?_offset h] using hget
    rw [hround]
    rfl

theorem loop_next (h : x :: rest <:+ xs) (hrest : rest' <:+ rest)
    (hround : round state (offset xs (x :: rest)) x = .ok (.next state' (offset xs rest'))) :
    loop xs atEnd round state (offset xs (x :: rest)) =
      loop xs atEnd round state' (offset xs rest') := by
  have hlt : offset xs (x :: rest) < offset xs rest' :=
    offset_lt_offset h (Nat.lt_succ_of_le hrest.length_le)
  rw [loop]
  split
  · rename_i hget
    simp [getElem?_offset h] at hget
  · rename_i y hget
    obtain rfl : x = y := by simpa [getElem?_offset h] using hget
    rw [hround]
    simp [hlt]

end Loop

/-- The next round at a cursor, if there is one. -/
def Round.resume {σ β : Type} (final : σ → β) (state : σ) : Option Nat → Round σ β
  | none => .done (final state)
  | some index => .next state index

section CursorLoop

variable {α σ β : Type} (xs : List α) (final : σ → β) (round : σ → Nat → α → Checked (Round σ β))

/-- A loop that goes on as long as there is a cursor. The index of a cursor has to lie in the list. -/
def cursorLoop (state : σ) : Option Nat → Checked β
  | none => .ok (final state)
  | some index => loop xs (fun _ _ => .error .outOfRange) round state index

variable {xs final round} {state state' : σ} {rest rest' : List α} {x : α}

theorem cursorLoop_done {result : β} (h : x :: rest <:+ xs)
    (hround : round state (offset xs (x :: rest)) x = .ok (.done result)) :
    cursorLoop xs final round state (cursor? xs (x :: rest)) = .ok result :=
  loop_done h hround

theorem cursorLoop_resume (h : x :: rest <:+ xs) (hrest : rest' <:+ rest)
    (hround : round state (offset xs (x :: rest)) x =
      .ok (.resume final state' (cursor? xs rest'))) :
    cursorLoop xs final round state (cursor? xs (x :: rest)) =
      cursorLoop xs final round state' (cursor? xs rest') := by
  cases rest' with
  | nil => exact loop_done h hround
  | cons y rest' => exact loop_next h hrest hround

end CursorLoop

end EnumConverter
