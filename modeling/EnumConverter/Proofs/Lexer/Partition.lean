import EnumConverter.Proofs.Lexer.Shape
import EnumConverter.Proofs.Lexer.Span

namespace EnumConverter.Source

open Text

namespace Cursor

@[simp] theorem position_past (here : Cursor) (lexeme : Lexeme) :
    (here.past lexeme).position = here.position.after lexeme.text := by
  unfold past
  dsimp only
  split <;> rfl

/-- Reading has come to the end of `before`, and `rest` is left. Where the cursor says that its line is
fresh, only blanks precede it on the line, unless a directive just ended there. -/
structure Stands (here : Cursor) (before rest : List Char) : Prop where
  position : here.position = Position.start.after before
  fresh : here.fresh = true →
    (∀ c ∈ lastLine before, isBlank c = true) ∨ rest = [] ∨ rest.head? = some '\n'

theorem stands_start (source : List Char) : ({} : Cursor).Stands [] source :=
  ⟨rfl, fun _ => .inl (by simp)⟩

variable {here : Cursor} {before cs : List Char} {c : Char}

/-- The line before a character that is no line feed is blank, if the cursor says that it is fresh. -/
theorem Stands.blank_line (h : here.Stands before (c :: cs)) (hfresh : here.fresh = true)
    (hc : c ≠ '\n') : ∀ d ∈ lastLine before, isBlank d = true := by
  obtain hblank | hnil | hhead := h.fresh hfresh
  · exact hblank
  · simp at hnil
  · exact absurd (by simpa using hhead) hc

/-- A directive that is read where a cursor stands ends as a directive has to. -/
theorem Stands.directive_ends (before cs : List Char) :
    LineFeedsEscaped (before ++ ['#']) (directiveRest cs).taken ∧
      ((directiveRest cs).rest = [] ∨ (directiveRest cs).rest.head? = some '\n' ∧
        ¬ EndsEscaped (before ++ ['#'] ++ (directiveRest cs).taken)) :=
  directiveRest_lineFeeds (settled_concat before cs (by decide) (by decide))

/-- Reading a lexeme brings the cursor to the end of that lexeme. -/
theorem Stands.past (h : here.Stands before (c :: cs)) :
    (here.past (Lexeme.next here.fresh c cs)).Stands
      (before ++ (Lexeme.next here.fresh c cs).text) (Lexeme.next here.fresh c cs).rest := by
  have hopening := Lexeme.opening_next here.fresh c cs
  generalize Lexeme.next here.fresh c cs = lexeme at hopening
  refine ⟨by rw [position_past, h.position, Position.after_append], ?_⟩
  intro hfresh
  cases hshape : lexeme.shape with
  | blank =>
    obtain ⟨hblank, htext⟩ := hopening.of_blank hshape
    rw [htext]
    by_cases hc : c = '\n'
    · exact .inl (by simp [hc])
    · have hbefore : here.fresh = true := by simpa [Cursor.past, hshape, htext, hc] using hfresh
      have hline := h.blank_line hbefore hc
      refine .inl fun d hd => ?_
      rw [lastLine_concat before hc, List.mem_append, List.mem_singleton] at hd
      obtain hd | rfl := hd
      · exact hline d hd
      · exact hblank
  | directive =>
    obtain ⟨-, rfl, hcut⟩ := hopening.of_directive hshape
    obtain ⟨-, hend⟩ := directive_ends before cs
    rw [show lexeme.rest = (directiveRest cs).rest by rw [Lexeme.rest, hcut]; rfl]
    exact .inr (hend.imp id And.left)
  | _ => simp [Cursor.past, hshape] at hfresh

end Cursor

/-- The part of the text that a lexeme takes when `before` was read. -/
def spanBehind (before : List Char) (lexeme : Lexeme) : Span :=
  ⟨before.length, before.length + lexeme.text.length⟩

section Parts

variable {here : Cursor} {before cs : List Char} {c : Char} {lexeme : Lexeme}

theorem slice_spanBehind (before rest : List Char) (lexeme : Lexeme) :
    (spanBehind before lexeme).slice (before ++ (lexeme.text ++ rest)) = lexeme.text := by
  simp [spanBehind, Span.slice, List.take_append]

/-- What stands right behind the part of a lexeme is the first character that the lexeme leaves. -/
theorem getElem?_spanBehind_stop (before rest : List Char) (lexeme : Lexeme) :
    (before ++ (lexeme.text ++ rest))[(spanBehind before lexeme).stop]? = rest.head? := by
  rw [← List.append_assoc, List.getElem?_append_right (by simp [spanBehind])]
  simp [spanBehind, List.head?_eq_getElem?]

theorem take_spanBehind_stop (before rest : List Char) (lexeme : Lexeme) :
    (before ++ (lexeme.text ++ rest)).take (spanBehind before lexeme).stop =
      before ++ lexeme.text := by
  rw [← List.append_assoc]
  exact List.take_left' (by simp [spanBehind])

theorem positionAt_length (before rest : List Char) :
    positionAt (before ++ rest) before.length = Position.start.after before := by
  rw [← start_after_take]
  simp

/-- A token stands in the part of the text that its lexeme takes. -/
theorem Cursor.Stands.token_standsIn (h : here.Stands before (c :: cs))
    (hlexeme : lexeme = Lexeme.next here.fresh c cs) {token : Token}
    (htoken : here.token? lexeme = some token) :
    token.StandsIn (before ++ c :: cs) (spanBehind before lexeme) := by
  have hopening : Lexeme.Opening here.fresh c cs lexeme := hlexeme ▸ Lexeme.opening_next ..
  have hwhole : lexeme.text ++ lexeme.rest = c :: cs := hlexeme ▸ Lexeme.text_append_rest ..
  have hslice : (spanBehind before lexeme).slice (before ++ c :: cs) = lexeme.text := by
    rw [← hwhole, slice_spanBehind]
  have hstart : positionAt (before ++ c :: cs) before.length = here.position := by
    rw [positionAt_length, h.position]
  have hstop : positionAt (before ++ c :: cs) (spanBehind before lexeme).stop =
      here.position.after lexeme.text := by
    rw [← hwhole, ← List.append_assoc, h.position, ← Position.after_append,
      ← positionAt_length _ lexeme.rest]
    simp [spanBehind]
  obtain ⟨kind, hkind, rfl⟩ := Option.map_eq_some_iff.1 htoken
  refine ⟨hstart.symm, ?_⟩
  unfold Cursor.kind? at hkind
  cases hshape : lexeme.shape with
  | blank => simp [hshape] at hkind
  | directive => simp [hshape] at hkind
  | lineComment =>
    obtain rfl : _ = kind := by simpa [hshape] using hkind
    obtain ⟨⟨tail, htext⟩, hfeed, hend⟩ := hopening.of_lineComment hshape
    refine ⟨?_, ?_, rfl, ?_, ?_⟩
    · rw [hslice, htext]
      exact ⟨tail, rfl⟩
    · rw [hslice]
      rfl
    · rwa [hslice]
    · obtain hnil | hhead := hend
      · exact .inl (by rw [← hwhole, hnil]; simp [spanBehind])
      · exact .inr (by rw [← hwhole, getElem?_spanBehind_stop, hhead])
  | blockComment =>
    obtain rfl : _ = kind := by simpa [hshape] using hkind
    obtain ⟨tail, htext⟩ := hopening.of_blockComment hshape
    refine ⟨?_, ?_, ?_⟩
    · rw [hslice, htext]
      exact ⟨tail, rfl⟩
    · rw [hslice]
      rfl
    · exact (congrArg Position.line hstop).symm
  | identifier =>
    obtain rfl : _ = kind := by simpa [hshape] using hkind
    exact congrArg String.ofList hslice.symm
  | pathSeparator =>
    obtain rfl : _ = kind := by simpa [hshape] using hkind
    exact hslice.trans (hopening.of_pathSeparator hshape)
  | punctuation d =>
    obtain rfl : _ = kind := by simpa [hshape] using hkind
    exact hslice.trans (hopening.of_punctuation hshape)
  | string | character | number =>
    obtain rfl : _ = kind := by simpa [hshape] using hkind
    trivial

/-- The characters of a lexeme that is no token are blank or make up a directive. -/
theorem Cursor.Stands.blank_or_directiveRun (h : here.Stands before (c :: cs))
    (hlexeme : lexeme = Lexeme.next here.fresh c cs) (htoken : here.token? lexeme = none) :
    (isBlank c = true ∧ lexeme.text = [c]) ∨
      DirectiveRun (before ++ c :: cs) (spanBehind before lexeme) := by
  have hopening : Lexeme.Opening here.fresh c cs lexeme := hlexeme ▸ Lexeme.opening_next ..
  have hwhole : lexeme.text ++ lexeme.rest = c :: cs := hlexeme ▸ Lexeme.text_append_rest ..
  have hkind : here.kind? lexeme = none := by simpa [Cursor.token?] using htoken
  unfold Cursor.kind? at hkind
  cases hshape : lexeme.shape with
  | blank => exact .inl (hopening.of_blank hshape)
  | directive =>
    right
    obtain ⟨hfresh, rfl, hcut⟩ := hopening.of_directive hshape
    obtain ⟨hinside, hend⟩ := directive_ends before cs
    have htext : lexeme.text = '#' :: (directiveRest cs).taken := by rw [Lexeme.text, hcut]; rfl
    have hrest : lexeme.rest = (directiveRest cs).rest := by rw [Lexeme.rest, hcut]; rfl
    refine ⟨by simp [spanBehind], ?_, ?_, ?_⟩
    · simpa [spanBehind] using h.blank_line hfresh (by decide)
    · intro offset hcovers hfeed
      have hescaped : LineFeedsEscaped before lexeme.text := by
        rw [htext]
        exact ⟨fun hsign => absurd hsign (by decide), hinside⟩
      rw [← hwhole] at hfeed ⊢
      exact hescaped.endsEscaped_take lexeme.rest hcovers.1 hcovers.2 hfeed
    · rw [← hwhole, hrest]
      obtain hnil | ⟨hhead, hescaped⟩ := hend
      · exact .inl (by rw [hnil]; simp [spanBehind])
      · refine .inr ⟨by rw [getElem?_spanBehind_stop, hhead], ?_⟩
        rw [take_spanBehind_stop, htext]
        simpa using hescaped
  | _ => simp [hshape] at hkind

end Parts

namespace Cursor

/-- The token that a lexeme is when it starts here, with the part in which it stands when `offset`
characters precede it. -/
def placed? (here : Cursor) (offset : Nat) (lexeme : Lexeme) : Option (Span × Token) :=
  (here.token? lexeme).map (⟨offset, offset + lexeme.text.length⟩, ·)

/-- The tokens of a text that is read from here, each with the part in which it stands when `offset`
characters precede the text. -/
def placed (here : Cursor) (offset : Nat) : List Char → List (Span × Token)
  | [] => []
  | c :: cs =>
    let lexeme := Lexeme.next here.fresh c cs
    (here.placed? offset lexeme).toList ++
      (here.past lexeme).placed (offset + lexeme.text.length) lexeme.rest
termination_by input => input.length
decreasing_by exact Lexeme.length_rest_next_lt _ _ _

theorem map_placed (here : Cursor) (offset : Nat) (input : List Char) :
    (here.placed offset input).map (·.2) = here.tokens input := by
  fun_induction placed here offset input with
  | case1 here => rw [tokens_nil, List.map_nil]
  | case2 here offset c cs lexeme ih =>
    rw [tokens_cons, List.map_append, ih, placed?]
    cases here.token? lexeme <;> rfl

/-- Reading from a cursor on gives every token its part of the text. -/
theorem Stands.tiles_placed {here : Cursor} {before input : List Char}
    (h : here.Stands before input) :
    Tiles (before ++ input) before.length (here.placed before.length input) := by
  generalize hoffset : before.length = offset
  fun_induction placed here offset input generalizing before with
  | case1 here offset =>
    refine ⟨by simp [Ordered, hoffset], by simp, ?_⟩
    intro place hlower hupper
    simp at hupper
    omega
  | case2 here offset c cs lexeme =>
    rename_i ih
    subst hoffset
    have htiles := ih h.past (List.length_append ..)
    have hwhole : lexeme.text ++ lexeme.rest = c :: cs := Lexeme.text_append_rest ..
    have hpos : 0 < lexeme.text.length := List.length_pos_iff.2 (Lexeme.text_ne_nil _ _ _)
    rw [List.append_assoc, hwhole] at htiles
    unfold placed?
    cases htoken : here.token? lexeme with
    | some token =>
      have hstands := h.token_standsIn rfl htoken
      exact Tiles.cons (Nat.lt_add_of_pos_right hpos) hstands htiles
    | none =>
      refine htiles.skip (Nat.le_add_right ..) ?_
      intro place hlower hupper
      obtain ⟨hblank, htext⟩ | hrun := h.blank_or_directiveRun rfl htoken
      · have hplace : place = before.length := by
          rw [htext, List.length_singleton] at hupper
          omega
        exact .inl ⟨c, by simp [hplace], hblank⟩
      · refine .inr ⟨_, Nat.le_refl _, ⟨hlower, hupper⟩, hrun, ?_⟩
        intro span hmem
        exact .inr (htiles.ordered.bounds span hmem).1

theorem Stands.exists_tiles {here : Cursor} {before input : List Char}
    (h : here.Stands before input) :
    ∃ placed, placed.map (·.2) = here.tokens input ∧
      Tiles (before ++ input) before.length placed :=
  ⟨_, map_placed here before.length input, h.tiles_placed⟩

end Cursor

/-- All tokens of a source text, in order, with the parts in which they stand. -/
def placedTokens (source : String) : List (Span × Token) :=
  ({} : Cursor).placed 0 source.toList

theorem exists_standsIn {source : String} {token : Token} (h : token ∈ tokenize source) :
    ∃ span : Span, span.start ≤ span.stop ∧ token.StandsIn source.toList span := by
  have htiles := (Cursor.stands_start source.toList).tiles_placed
  have htokens : (placedTokens source).map (·.2) = tokenize source := Cursor.map_placed {} 0 _
  rw [← htokens] at h
  obtain ⟨⟨span, _⟩, hmem, rfl⟩ := List.mem_map.1 h
  have hbounds := htiles.ordered.bounds span (List.mem_map_of_mem hmem)
  exact ⟨span, Nat.le_of_lt hbounds.2.1, htiles.standsIn _ _ hmem⟩

theorem position_bounds {source : String} {token : Token} (h : token ∈ tokenize source) :
    1 ≤ token.position.line ∧ token.position.line ≤ 1 + source.toList.count '\n' ∧
      1 ≤ token.position.column := by
  obtain ⟨span, -, hposition, -⟩ := exists_standsIn h
  have hcount := (List.take_sublist span.start source.toList).count_le '\n'
  have hline : token.position.line = 1 + (source.toList.take span.start).count '\n' := by
    rw [hposition]
    rfl
  have hcolumn : token.position.column =
      1 + (lastLine (source.toList.take span.start)).length := by
    rw [hposition]
    rfl
  omega

/-- The tokens of a source text stand in parts of the text that follow each other, each token says
where its part starts and what stands in it, and every other character is blank or belongs to a
directive. So nothing else is lost, and the positions of the tokens increase. -/
theorem tokenize_partitions (source : String) :
    ∃ placed : List (Span × Token), placed.map (·.2) = tokenize source ∧
      Ordered source.toList.length 0 (placed.map (·.1)) ∧
      (∀ span token, (span, token) ∈ placed → token.StandsIn source.toList span) ∧
      (∀ offset, offset < source.toList.length →
        (∀ span ∈ placed.map (·.1), ¬ span.Covers offset) →
        SkippedFrom 0 source.toList (placed.map (·.1)) offset) ∧
      (tokenize source).Pairwise (·.position.Before ·.position) := by
  obtain ⟨placed, htokens, htiles⟩ := (Cursor.stands_start source.toList).exists_tiles
  refine ⟨placed, htokens, htiles.ordered, htiles.standsIn, ?_, ?_⟩
  · exact fun offset hlength => htiles.skipped offset (Nat.zero_le _) hlength
  · have hincreasing := htiles.ordered.pairwise
    rw [List.pairwise_map] at hincreasing
    change (({} : Cursor).tokens source.toList).Pairwise _
    rw [← htokens, List.pairwise_map]
    refine hincreasing.imp_of_mem ?_
    rintro ⟨first, token⟩ ⟨second, other⟩ hfirst hsecond hlt
    rw [(htiles.standsIn _ _ hfirst).1, (htiles.standsIn _ _ hsecond).1]
    have hbounds := htiles.ordered.bounds second (List.mem_map_of_mem hsecond)
    exact positionAt_before hlt (by simp at hbounds ⊢; omega)

end EnumConverter.Source
