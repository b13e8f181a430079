import EnumConverter.Scan.ScopeStack
import Mathlib.Data.List.Nodup

namespace EnumConverter.Scan

/-- What can be done with a stack of open scopes. -/
inductive ScopeMove where
  | enter (segments : Scope) (line : Nat)
  /-- Opens a brace that brings no names. -/
  | enterAnonymous (line : Nat)
  | exit
deriving DecidableEq, Repr

namespace ScopeMove

/-- The scope that a move opens. -/
def opened? : ScopeMove → Option OpenScope
  | .enter segments line => some ⟨segments, line⟩
  | .enterAnonymous line => some ⟨[], line⟩
  | .exit => none

/-- The stack behind a move and what the move answers. A stack on which a move fails stays as it is. -/
def apply (stack : ScopeStack) : ScopeMove → ScopeStack × Except ScopeError Unit
  | .enter segments line => (stack.enter segments line, .ok ())
  | .enterAnonymous line => (stack.enter [] line, .ok ())
  | .exit =>
    match stack.exit with
    | .ok outer => (outer, .ok ())
    | .error error => (stack, .error error)

theorem opened?_eq_none_iff {move : ScopeMove} : move.opened? = none ↔ move = .exit := by
  cases move <;> simp [opened?]

theorem apply_of_opened {move : ScopeMove} {scope : OpenScope} (h : move.opened? = some scope)
    (stack : ScopeStack) : move.apply stack = (scope :: stack, .ok ()) := by
  cases move with
  | enter segments line =>
    obtain rfl := Option.some.inj h
    rfl
  | enterAnonymous line =>
    obtain rfl := Option.some.inj h
    rfl
  | exit => cases h

@[simp] theorem apply_exit_nil : exit.apply [] = ([], .error .unexpectedExit) := rfl

@[simp] theorem apply_exit_cons (scope : OpenScope) (stack : ScopeStack) :
    exit.apply (scope :: stack) = (stack, .ok ()) := rfl

end ScopeMove

/-- The stack behind a sequence of moves. -/
def ScopeStack.run (stack : ScopeStack) (moves : List ScopeMove) : ScopeStack :=
  moves.foldl (fun stack move => (move.apply stack).1) stack

variable (moves : List ScopeMove)

/-- The stack from which the move at `index` starts. -/
def stackBefore (index : Nat) : ScopeStack :=
  ScopeStack.run [] (moves.take index)

/-- What the move at `index` answers. -/
def answerAt? (index : Nat) : Option (Except ScopeError Unit) :=
  moves[index]?.map fun move => (move.apply (stackBefore moves index)).2

/-- The scope that the move at `index` opens. -/
def openedAt? (index : Nat) : Option OpenScope :=
  moves[index]?.bind ScopeMove.opened?

/-- The nearest opening before `index` that is not among those in `closed`. -/
def nearestOpening? (closed : List Nat) (index : Nat) : Option Nat :=
  (List.range index).reverse.find? fun opening =>
    (openedAt? moves opening).isSome && opening ∉ closed

/-- The openings with the exits before `count` that close them. Each exit in turn closes the nearest
opening before it that no earlier exit closes. -/
def matchingBefore : Nat → List (Nat × Nat)
  | 0 => []
  | index + 1 =>
    let earlier := matchingBefore index
    if moves[index]? = some .exit then
      earlier ++ ((nearestOpening? moves (earlier.map (·.1)) index).map (·, index)).toList
    else earlier

/-- The openings with the exits that close them. -/
def matching : List (Nat × Nat) :=
  matchingBefore moves moves.length

/-- The scopes that no exit closes, in the order in which they are opened. -/
def unclosed : List OpenScope :=
  ((List.range moves.length).filter (· ∉ (matching moves).map (·.1))).filterMap (openedAt? moves)

/-- Every opening is closed by an exit, and every exit closes an opening. -/
def Balanced : Prop :=
  ∀ index < moves.length, ∃ pair ∈ matching moves, index = pair.1 ∨ index = pair.2

variable {moves} {index opening : Nat}

/-- The openings before `index` that are not among those in `closed`, the nearest first. -/
def openingsBefore (moves : List ScopeMove) (closed : List Nat) (index : Nat) : List Nat :=
  (List.range index).reverse.filter fun opening =>
    (openedAt? moves opening).isSome && opening ∉ closed

/-- The openings before `index` that no exit before it closes, the nearest first. -/
def waiting (moves : List ScopeMove) (index : Nat) : List Nat :=
  openingsBefore moves ((matchingBefore moves index).map (·.1)) index

theorem mem_openingsBefore {closed : List Nat} :
    opening ∈ openingsBefore moves closed index ↔
      opening < index ∧ (openedAt? moves opening).isSome = true ∧ opening ∉ closed := by
  simp [openingsBefore]

theorem nodup_openingsBefore (moves : List ScopeMove) (closed : List Nat) (index : Nat) :
    (openingsBefore moves closed index).Nodup :=
  (List.nodup_reverse.2 List.nodup_range).filter _

theorem openingsBefore_append (moves : List ScopeMove) (closed more : List Nat) (index : Nat) :
    openingsBefore moves (closed ++ more) index =
      (openingsBefore moves closed index).filter (· ∉ more) := by
  rw [openingsBefore, openingsBefore, List.filter_filter]
  refine List.filter_congr fun opening _ => ?_
  simp [Bool.and_comm, Bool.and_left_comm, Bool.and_assoc]

theorem openingsBefore_succ (moves : List ScopeMove) (closed : List Nat) (index : Nat) :
    openingsBefore moves closed (index + 1) =
      if (openedAt? moves index).isSome && index ∉ closed then
        index :: openingsBefore moves closed index
      else openingsBefore moves closed index := by
  rw [openingsBefore, List.range_succ, List.reverse_concat, List.filter_cons]
  rfl

theorem nearestOpening?_eq (moves : List ScopeMove) (index : Nat) :
    nearestOpening? moves ((matchingBefore moves index).map (·.1)) index =
      (waiting moves index).head? :=
  List.head?_filter.symm

/-- The pairs are exactly the exits with the nearest opening that waits for them. -/
theorem mem_matchingBefore_iff {count : Nat} :
    (opening, index) ∈ matchingBefore moves count ↔
      index < count ∧ moves[index]? = some .exit ∧ (waiting moves index).head? = some opening := by
  induction count with
  | zero => simp [matchingBefore]
  | succ count ih =>
    rw [matchingBefore]
    by_cases hexit : moves[count]? = some .exit
    · rw [if_pos hexit, List.mem_append, ih, nearestOpening?_eq]
      constructor
      · rintro (⟨hindex, hmatched⟩ | hnew)
        · exact ⟨by omega, hmatched⟩
        · obtain ⟨nearest, hnearest, hpair⟩ := Option.map_eq_some_iff.1 (Option.mem_toList.1 hnew)
          obtain ⟨rfl, rfl⟩ := Prod.mk.inj hpair
          exact ⟨by omega, hexit, hnearest⟩
      · rintro ⟨hindex, hmatched⟩
        obtain hindex | rfl := Nat.lt_succ_iff_lt_or_eq.1 hindex
        · exact .inl ⟨hindex, hmatched⟩
        · exact .inr (by simp [hmatched.2])
    · rw [if_neg hexit, ih]
      constructor
      · rintro ⟨hindex, hmatched⟩
        exact ⟨by omega, hmatched⟩
      · rintro ⟨hindex, hmatched⟩
        obtain hindex | rfl := Nat.lt_succ_iff_lt_or_eq.1 hindex
        · exact ⟨hindex, hmatched⟩
        · exact absurd hmatched.1 hexit

/-- An opening stands before the exit that closes it. -/
theorem lt_of_mem_matchingBefore {count : Nat} (h : (opening, index) ∈ matchingBefore moves count) :
    opening < index ∧ index < count := by
  obtain ⟨hindex, -, hhead⟩ := mem_matchingBefore_iff.1 h
  exact ⟨(mem_openingsBefore.1 (List.mem_of_mem_head? hhead)).1, hindex⟩

/-- An opening is no exit. -/
theorem openedAt?_of_mem_matching (h : (opening, index) ∈ matching moves) :
    (openedAt? moves opening).isSome = true ∧ moves[index]? = some .exit := by
  obtain ⟨-, hexit, hhead⟩ := mem_matchingBefore_iff.1 h
  exact ⟨(mem_openingsBefore.1 (List.mem_of_mem_head? hhead)).2.1, hexit⟩

theorem openedAt?_of_exit (h : moves[index]? = some .exit) : openedAt? moves index = none := by
  simp [openedAt?, h, ScopeMove.opened?]

/-- A scope that is opened waits first. -/
theorem waiting_of_opened (h : (openedAt? moves index).isSome = true) :
    waiting moves (index + 1) = index :: waiting moves index := by
  have hexit : moves[index]? ≠ some .exit := by
    intro hexit
    rw [openedAt?_of_exit hexit] at h
    cases h
  have hsame : matchingBefore moves (index + 1) = matchingBefore moves index := if_neg hexit
  have hnew : index ∉ (matchingBefore moves index).map (·.1) := by
    intro hmem
    obtain ⟨⟨opening, exit⟩, hpair, rfl⟩ := List.mem_map.1 hmem
    have hbounds := lt_of_mem_matchingBefore hpair
    dsimp only at hbounds
    omega
  rw [waiting, hsame, openingsBefore_succ, if_pos (by simp only [h, hnew]; decide), waiting]

/-- An exit closes the scope that waits first. -/
theorem waiting_of_exit (h : moves[index]? = some .exit) :
    waiting moves (index + 1) = (waiting moves index).tail := by
  have hmatching : matchingBefore moves (index + 1) = matchingBefore moves index ++
      (((waiting moves index).head?).map (·, index)).toList := by
    rw [← nearestOpening?_eq]
    exact if_pos h
  rw [waiting, hmatching, openingsBefore_succ, if_neg (by simp [openedAt?_of_exit h]),
    List.map_append, openingsBefore_append]
  change (waiting moves index).filter _ = _
  have hnodup : (waiting moves index).Nodup := nodup_openingsBefore ..
  cases hwaiting : waiting moves index with
  | nil => rfl
  | cons nearest rest =>
    rw [hwaiting, List.nodup_cons] at hnodup
    rw [List.filter_cons_of_neg (by simp), List.tail_cons, List.filter_eq_self]
    intro opening hopening
    have hne : opening ≠ nearest := fun hsame => hnodup.1 (hsame ▸ hopening)
    simpa using hne

theorem stackBefore_succ {move : ScopeMove} (h : moves[index]? = some move) :
    stackBefore moves (index + 1) = (move.apply (stackBefore moves index)).1 := by
  rw [stackBefore, List.take_add_one, h, ScopeStack.run, List.foldl_append]
  rfl

/-- The stack holds the scopes whose openings wait for an exit. -/
theorem stackBefore_eq (h : index ≤ moves.length) :
    stackBefore moves index = (waiting moves index).filterMap (openedAt? moves) := by
  induction index with
  | zero => rfl
  | succ index ih =>
    have hstack := ih (by omega)
    have hmove : moves[index]? = some moves[index] := List.getElem?_eq_getElem h
    rw [stackBefore_succ hmove, hstack]
    cases hopened : moves[index].opened? with
    | some scope =>
      have hscope : openedAt? moves index = some scope := by simp [openedAt?, hmove, hopened]
      rw [ScopeMove.apply_of_opened hopened, waiting_of_opened (by simp [hscope]),
        List.filterMap_cons_some hscope]
    | none =>
      rw [ScopeMove.opened?_eq_none_iff] at hopened
      rw [hopened, waiting_of_exit (hmove.trans (congrArg some hopened))]
      cases hwaiting : waiting moves index with
      | nil => rfl
      | cons nearest rest =>
        have hnearest : nearest ∈ waiting moves index := by simp [hwaiting]
        obtain ⟨scope, hscope⟩ := Option.isSome_iff_exists.1 (mem_openingsBefore.1 hnearest).2.1
        rw [List.filterMap_cons_some hscope]
        rfl

/-- The stack is empty before an exit that closes nothing, and only before such an exit. -/
theorem stackBefore_eq_nil_iff (h : moves[index]? = some .exit) :
    stackBefore moves index = [] ↔ ∀ opening, (opening, index) ∉ matching moves := by
  have hindex : index < moves.length := (List.getElem?_eq_some_iff.1 h).1
  rw [stackBefore_eq (Nat.le_of_lt hindex)]
  constructor
  · intro hnil opening hpair
    obtain ⟨-, -, hhead⟩ := mem_matchingBefore_iff.1 hpair
    have hopening := List.mem_of_mem_head? hhead
    have hsome := (mem_openingsBefore.1 hopening).2.1
    rw [List.filterMap_eq_nil_iff.1 hnil opening hopening] at hsome
    cases hsome
  · intro hnone
    cases hwaiting : waiting moves index with
    | nil => rfl
    | cons nearest rest =>
      exact absurd (mem_matchingBefore_iff.2 ⟨hindex, h, by rw [hwaiting]; rfl⟩) (hnone nearest)

theorem answerAt?_of_exit (h : moves[index]? = some .exit) :
    answerAt? moves index = some (.error .unexpectedExit) ↔ stackBefore moves index = [] := by
  rw [answerAt?, h, Option.map_some]
  cases stackBefore moves index with
  | nil => simp
  | cons scope stack => simp

theorem run_eq_stackBefore (moves : List ScopeMove) :
    ScopeStack.run [] moves = stackBefore moves moves.length := by
  rw [stackBefore, List.take_length]

/-- The stack holds the scopes that no exit closes, the last one on top. -/
theorem run_eq_unclosed (moves : List ScopeMove) :
    ScopeStack.run [] moves = (unclosed moves).reverse := by
  rw [run_eq_stackBefore, stackBefore_eq (Nat.le_refl _), waiting, openingsBefore, unclosed,
    List.filter_reverse, List.filterMap_reverse, List.filterMap_filter, List.filterMap_filter]
  congr 2
  funext opening
  cases hopened : openedAt? moves opening with
  | none => simp
  | some scope =>
    rw [Option.isSome_some, Bool.true_and]
    rfl

theorem finish_of_getLast? {innermost : OpenScope} {scopes : List OpenScope}
    (h : scopes.getLast? = some innermost) :
    ScopeStack.finish scopes.reverse = .error (.unclosed scopes.length innermost.line) := by
  obtain ⟨outer, rfl⟩ := List.getLast?_eq_some_iff.1 h
  rw [List.reverse_concat, ScopeStack.finish]
  simp

/-- Moves none of which fails do the same above any other stack. -/
theorem run_append_stack {stack : ScopeStack} {moves : List ScopeMove}
    (h : ∀ before after, moves = before ++ .exit :: after → stack.run before ≠ [])
    (outer : ScopeStack) : ScopeStack.run (stack ++ outer) moves = stack.run moves ++ outer := by
  induction moves generalizing stack with
  | nil => rfl
  | cons move moves ih =>
    have hrest : ∀ before after, moves = before ++ .exit :: after →
        ((move.apply stack).1).run before ≠ [] := by
      rintro before after rfl
      exact h (move :: before) after rfl
    have hmove : (move.apply (stack ++ outer)).1 = (move.apply stack).1 ++ outer := by
      cases hopened : move.opened? with
      | some scope => rw [ScopeMove.apply_of_opened hopened, ScopeMove.apply_of_opened hopened]; rfl
      | none =>
        obtain rfl := ScopeMove.opened?_eq_none_iff.1 hopened
        cases stack with
        | nil => exact absurd rfl (h [] moves rfl)
        | cons scope stack => rfl
    change ScopeStack.run (move.apply (stack ++ outer)).1 moves = _
    rw [hmove, ih hrest]
    rfl

theorem Balanced.unclosed_eq_nil (h : Balanced moves) : unclosed moves = [] := by
  rw [unclosed, List.filterMap_eq_nil_iff]
  intro index hindex
  rw [List.mem_filter, List.mem_range, decide_eq_true_eq] at hindex
  obtain ⟨⟨opening, exit⟩, hpair, rfl | rfl⟩ := h index hindex.1
  · exact absurd (List.mem_map_of_mem hpair) hindex.2
  · exact openedAt?_of_exit (openedAt?_of_mem_matching hpair).2

/-- In balanced moves every exit finds an open scope. -/
theorem Balanced.run_ne_nil (h : Balanced moves) {before after : List ScopeMove}
    (hsplit : moves = before ++ .exit :: after) : ScopeStack.run [] before ≠ [] := by
  have hexit : moves[before.length]? = some .exit := by simp [hsplit]
  have hstack : stackBefore moves before.length = ScopeStack.run [] before := by
    simp [stackBefore, hsplit]
  rw [← hstack, Ne, stackBefore_eq_nil_iff hexit]
  intro hnone
  obtain ⟨⟨opening, exit⟩, hpair, hindex | hindex⟩ := h before.length (by simp [hsplit])
  · have hopened := (openedAt?_of_mem_matching hpair).1
    rw [← show before.length = opening from hindex, openedAt?_of_exit hexit] at hopened
    cases hopened
  · obtain rfl : before.length = exit := hindex
    exact hnone opening hpair

/-- Balanced moves change no stack. -/
theorem Balanced.run_eq (h : Balanced moves) (stack : ScopeStack) : stack.run moves = stack := by
  have hrun := @run_append_stack [] moves (fun _ _ => h.run_ne_nil) stack
  rw [run_eq_unclosed, h.unclosed_eq_nil] at hrun
  exact hrun

theorem run_append (stack : ScopeStack) (first second : List ScopeMove) :
    stack.run (first ++ second) = (stack.run first).run second :=
  List.foldl_append ..

/-- From the global scope, an exit fails exactly if it closes nothing, and then it changes nothing. In the
end those scopes are open that no exit closes, their names are in effect from the outermost to the
innermost, and the last of them is reported. Balanced moves can be left out without a change to any
scope behind them. -/
theorem run_matching (moves : List ScopeMove) :
    let stack := ScopeStack.run [] moves
    (∀ index, moves[index]? = some .exit →
      (answerAt? moves index = some (.error .unexpectedExit) ↔
        ∀ opening, (opening, index) ∉ matching moves) ∧
      ((∀ opening, (opening, index) ∉ matching moves) →
        (stackBefore moves (index + 1)).scope = (stackBefore moves index).scope ∧
          (stackBefore moves (index + 1)).depth = (stackBefore moves index).depth)) ∧
    stack.depth = (unclosed moves).length ∧
    stack.scope = (unclosed moves).flatMap (·.segments) ∧
    (stack.finish = .ok () ↔ unclosed moves = []) ∧
    (∀ innermost, (unclosed moves).getLast? = some innermost →
      stack.finish = .error (.unclosed (unclosed moves).length innermost.line)) ∧
    ∀ before block after, moves = before ++ block ++ after → Balanced block → ∀ count,
      (stackBefore moves (before.length + block.length + count)).scope =
        (stackBefore (before ++ after) (before.length + count)).scope := by
  intro stack
  have hstack : stack = (unclosed moves).reverse := run_eq_unclosed moves
  refine ⟨?_, ?_, ?_, ?_, ?_, ?_⟩
  · intro index hexit
    rw [answerAt?_of_exit hexit, stackBefore_eq_nil_iff hexit]
    refine ⟨Iff.rfl, fun hnone => ?_⟩
    rw [stackBefore_succ hexit, (stackBefore_eq_nil_iff hexit).2 hnone]
    exact ⟨rfl, rfl⟩
  · rw [hstack, ScopeStack.depth, List.length_reverse]
  · rw [hstack, ScopeStack.scope, List.reverse_reverse]
  · constructor
    · intro hfinish
      by_contra hopen
      have hlast := finish_of_getLast? (List.getLast?_eq_some_getLast hopen)
      rw [← hstack, hfinish] at hlast
      cases hlast
    · intro hnone
      rw [hstack, hnone]
      rfl
  · intro innermost hinnermost
    rw [hstack]
    exact finish_of_getLast? hinnermost
  · rintro before block after rfl hblock count
    have htake : (before ++ block ++ after).take (before.length + block.length + count) =
        before ++ block ++ after.take count := by
      rw [← List.length_append, List.take_length_add_append]
    rw [stackBefore, stackBefore, htake, List.take_length_add_append, run_append, run_append,
      hblock.run_eq, ← run_append]

-- The exits in front of and behind the two scopes close nothing.
example : matching [.exit, .enter [] 1, .enterAnonymous 2, .exit, .exit, .exit] =
    [(2, 3), (1, 4)] := by
  decide

end EnumConverter.Scan
