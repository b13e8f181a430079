import EnumConverter.Proofs.CommentFree.Name
import EnumConverter.Proofs.Scan.Equation

namespace EnumConverter.Scan

open Source

/-- Whether the brackets of some tokens are properly nested, when those in `stack` have to be closed
as well, the first of them first. -/
def nested : List Char → List Token → Bool
  | stack, [] => stack.isEmpty
  | stack, token :: rest =>
    match token.kind with
    | .punct '(' => nested (')' :: stack) rest
    | .punct '[' => nested (']' :: stack) rest
    | .punct '\x7b' => nested ('\x7d' :: stack) rest
    | .punct ')' | .punct ']' | .punct '\x7d' =>
      match stack with
      | [] => false
      | closing :: stack => token.isPunct closing && nested stack rest
    | _ => nested stack rest

/-- The kinds of brackets, each with what closes it. -/
def bracketPairs : List (Char × Char) := [('(', ')'), ('[', ']'), ('\x7b', '\x7d')]

/-- What a token can do to the brackets that have to be closed. -/
theorem nested_cons {stack : List Char} {token : Token} {rest : List Token}
    (h : nested stack (token :: rest) = true) :
    (∃ pair ∈ bracketPairs, token.kind = .punct pair.1 ∧ nested (pair.2 :: stack) rest = true) ∨
      (∃ pair ∈ bracketPairs, ∃ outer, token.kind = .punct pair.2 ∧ stack = pair.2 :: outer ∧
        nested outer rest = true) ∨
      (∀ pair ∈ bracketPairs, token.kind ≠ .punct pair.1 ∧ token.kind ≠ .punct pair.2) ∧
        nested stack rest = true := by
  have hclosing (c : Char) (hc : token.kind = .punct c) (hpair : c ∈ bracketPairs.map (·.2))
      (hstack : (match stack with
        | [] => false
        | closing :: outer => token.isPunct closing && nested outer rest) = true) :
      ∃ pair ∈ bracketPairs, ∃ outer, token.kind = .punct pair.2 ∧ stack = pair.2 :: outer ∧
        nested outer rest = true := by
    obtain ⟨pair, hmem, rfl⟩ := List.mem_map.1 hpair
    cases stack with
    | nil => simp at hstack
    | cons closing outer =>
      obtain ⟨htoken, hrest⟩ : token.isPunct closing = true ∧ nested outer rest = true := by
        simpa using hstack
      have hsame : closing = pair.2 := by simpa [Token.isPunct, hc, eq_comm] using htoken
      exact ⟨pair, hmem, outer, hc, by rw [hsame], hrest⟩
  unfold nested at h
  split at h
  · exact .inl ⟨('(', ')'), by decide, by assumption, h⟩
  · exact .inl ⟨('[', ']'), by decide, by assumption, h⟩
  · exact .inl ⟨('\x7b', '\x7d'), by decide, by assumption, h⟩
  · exact .inr (.inl (hclosing ')' (by assumption) (by decide) h))
  · exact .inr (.inl (hclosing ']' (by assumption) (by decide) h))
  · exact .inr (.inl (hclosing '\x7d' (by assumption) (by decide) h))
  · refine .inr (.inr ⟨?_, h⟩)
    simp_all [bracketPairs]

/-- The brackets of one kind that have to be closed, before and after a token. -/
theorem count_nested_cons {pair : Char × Char} (hpair : pair ∈ bracketPairs) {stack : List Char}
    {token : Token} {rest : List Token} (h : nested stack (token :: rest) = true) :
    ∃ inner, nested inner rest = true ∧
      inner.count pair.2 + (if token.isPunct pair.2 then 1 else 0) =
        stack.count pair.2 + (if token.isPunct pair.1 then 1 else 0) := by
  have hapart : ∀ one ∈ bracketPairs, ∀ other ∈ bracketPairs,
      (one.1 = other.1 ↔ one.2 = other.2) ∧ one.1 ≠ other.2 := by decide
  obtain ⟨one, hone, hkind, hrest⟩ | ⟨one, hone, outer, hkind, rfl, hrest⟩ | ⟨hnone, hrest⟩ :=
    nested_cons h
  · obtain ⟨hsame, hother⟩ := hapart one hone pair hpair
    refine ⟨_, hrest, ?_⟩
    simp [Token.isPunct, hkind, hother, hsame, List.count_cons]
  · obtain ⟨hsame, hother⟩ := hapart pair hpair one hone
    refine ⟨_, hrest, ?_⟩
    simp [Token.isPunct, hkind, Ne.symm hother, List.count_cons]
  · refine ⟨_, hrest, ?_⟩
    simp [Token.isPunct, hnone pair hpair]

/-- The brackets of the tokens are properly nested, up to those that were opened before, and a
semicolon comes last. -/
structure WellEnded (tokens : List Token) : Prop where
  nested : ∃ stack, nested stack tokens = true
  last : tokens.getLast?.any (·.isPunct ';') = true

theorem nested_of_suffix {stack : List Char} {tokens rest : List Token} (hsuffix : rest <:+ tokens)
    (h : nested stack tokens = true) : ∃ inner, nested inner rest = true := by
  induction tokens generalizing stack with
  | nil =>
    rw [List.suffix_nil.1 hsuffix]
    exact ⟨stack, h⟩
  | cons token tail ih =>
    obtain rfl | htail := List.suffix_cons_iff.1 hsuffix
    · exact ⟨stack, h⟩
    · obtain ⟨inner, hinner, -⟩ := count_nested_cons (show ('(', ')') ∈ bracketPairs by decide) h
      exact ih htail hinner

namespace WellEnded

variable {tokens rest : List Token} {token : Token}

theorem ne_nil (h : WellEnded tokens) : tokens ≠ [] := by
  rintro rfl
  simpa using h.last

theorem suffix (h : WellEnded tokens) (hsuffix : rest <:+ tokens) (hrest : rest ≠ []) :
    WellEnded rest := by
  obtain ⟨stack, hnested⟩ := h.nested
  refine ⟨nested_of_suffix hsuffix hnested, ?_⟩
  obtain ⟨front, rfl⟩ := hsuffix
  have hlast := h.last
  rwa [List.getLast?_append, List.getLast?_eq_some_getLast hrest, Option.some_or,
    ← List.getLast?_eq_some_getLast hrest] at hlast

/-- Only a semicolon ends the tokens. -/
theorem tail (h : WellEnded (token :: rest)) (htoken : token.isPunct ';' = false) :
    WellEnded rest := by
  refine h.suffix (List.suffix_cons ..) ?_
  rintro rfl
  simpa [htoken] using h.last

theorem tail_of_kind (h : WellEnded (token :: rest)) {kind : TokenKind} (htoken : token.kind = kind)
    (hkind : kind ≠ .punct ';') : WellEnded rest :=
  h.tail (by simpa [Token.isPunct, htoken] using hkind)

theorem skipComments (h : WellEnded tokens) : WellEnded (skipComments tokens) := by
  induction tokens with
  | nil => exact h
  | cons token rest ih =>
    cases htoken : token.isComment with
    | false => simpa [Scan.skipComments, htoken] using h
    | true =>
      have hskip : Scan.skipComments (token :: rest) = Scan.skipComments rest := by
        simp [Scan.skipComments, htoken]
      rw [hskip]
      exact ih (h.tail (isPunct_of_isComment htoken _))

end WellEnded

/-- A group of brackets that has to be closed is closed. -/
theorem afterGroup?_of_nested {pair : Char × Char} (hpair : pair ∈ bracketPairs) {stack : List Char}
    {inner : Nat} {tokens : List Token} (h : nested stack tokens = true)
    (hinner : inner < stack.count pair.2) : ∃ rest, afterGroup? pair.1 pair.2 inner tokens = some rest := by
  have hne : pair.1 ≠ pair.2 := (show ∀ pair ∈ bracketPairs, pair.1 ≠ pair.2 by decide) pair hpair
  induction tokens generalizing stack inner with
  | nil =>
    have hstack : stack = [] := by simpa [nested] using h
    simp [hstack] at hinner
  | cons token tail ih =>
    obtain ⟨stack', hstack', hcount⟩ := count_nested_cons hpair h
    rw [afterGroup?.eq_def]
    dsimp only
    by_cases hopening : token.isPunct pair.1 = true
    · have hclosing : token.isPunct pair.2 = false := by
        simp only [Token.isPunct, decide_eq_true_eq, decide_eq_false_iff_not] at hopening ⊢
        simp [hopening, hne]
      rw [if_pos hopening]
      exact ih hstack' (by simp [hopening, hclosing] at hcount; omega)
    · rw [if_neg hopening]
      by_cases hclosing : token.isPunct pair.2 = true
      · rw [if_pos hclosing]
        cases inner with
        | zero => exact ⟨tail, rfl⟩
        | succ inner => exact ih hstack' (by simp [hopening, hclosing] at hcount; omega)
      · rw [if_neg hclosing]
        exact ih hstack' (by simp [hopening, hclosing] at hcount; omega)

/-- A base clause ends with a body or a statement, if no more parentheses are open in it than have to be
closed. -/
theorem bodyOrEnd_ne_nil {stack : List Char} {depth : Nat} {tokens : List Token}
    (h : nested stack tokens = true) (hlast : tokens.getLast?.any (·.isPunct ';') = true)
    (hdepth : depth ≤ stack.count ')') : bodyOrEnd depth tokens ≠ [] := by
  induction tokens generalizing stack depth with
  | nil => simp at hlast
  | cons token tail ih =>
    obtain ⟨stack', hstack', hcount⟩ :=
      count_nested_cons (show ('(', ')') ∈ bracketPairs by decide) h
    have htail (hne : tail ≠ []) : tail.getLast?.any (·.isPunct ';') = true :=
      (WellEnded.suffix ⟨⟨stack, h⟩, hlast⟩ (List.suffix_cons ..) hne).last
    have hmore {c : Char} (hc : c ≠ ';') (htoken : token.isPunct c = true) : tail ≠ [] := by
      rintro rfl
      simp only [Token.isPunct, decide_eq_true_eq] at htoken
      simp [Token.isPunct, htoken, hc] at hlast
    rw [bodyOrEnd]
    split
    · rename_i hopening
      have hclosing : token.isPunct ')' = false := by
        simp only [Token.isPunct, decide_eq_true_eq] at hopening
        simp [Token.isPunct, hopening]
      refine ih hstack' (htail (hmore (by decide) hopening)) ?_
      simp [hopening, hclosing] at hcount
      omega
    split
    · rename_i hopening hclosing
      refine ih hstack' (htail (hmore (by decide) hclosing)) ?_
      simp [hopening, hclosing] at hcount
      omega
    split
    · simp
    · rename_i hopening hclosing hend
      have hsame : stack'.count ')' = stack.count ')' := by simpa [hopening, hclosing] using hcount
      refine ih hstack' (htail ?_) (by omega)
      -- The last token is a semicolon with no parenthesis open, at which the search ends.
      rintro rfl
      have hstack : stack' = [] := by simpa [nested] using hstack'
      have hzero : depth = 0 := by simp [hstack] at hsame; omega
      exact hend (by simpa [hzero] using .inr hlast)

end EnumConverter.Scan
