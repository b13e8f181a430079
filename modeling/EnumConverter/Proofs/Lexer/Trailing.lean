import EnumConverter.Proofs.Lexer.Partition
import EnumConverter.Proofs.Spelling.Tokens

namespace EnumConverter.Source

open Text

/-- The line of the last character of a part of a text. -/
def Span.lastLine (span : Span) (source : List Char) : Nat :=
  lineAt source (span.stop - 1)

/-- Whether one of the tokens is code whose last character stands on the given line. -/
def CodeEndsOn (source : List Char) (line : Nat) (placed : List (Span × Token)) : Prop :=
  ∃ span token, (span, token) ∈ placed ∧ token.isComment = false ∧ span.lastLine source = line

/-- Whether nothing is left on the current line. -/
def AtLineEnd (rest : List Char) : Prop :=
  rest = [] ∨ rest.head? = some '\n'

theorem atLineEnd_cons {c : Char} {cs : List Char} : AtLineEnd (c :: cs) ↔ c = '\n' := by
  simp [AtLineEnd]

/-- What is taken ends with a character of the line on which the rest goes on, or nothing is left on
that line. -/
def Cut.EndsOnLine (cut : Cut) : Prop :=
  (∀ c ∈ cut.taken.getLast?, c = '\n') → AtLineEnd cut.rest

theorem Cut.EndsOnLine.extend {cut : Cut} (h : cut.EndsOnLine) (cs : List Char) :
    (cut.extend cs).EndsOnLine := by
  intro hlast
  apply h
  intro c hc
  apply hlast
  rw [Cut.extend, List.getLast?_append, hc]
  rfl

theorem quotedRest_endsOnLine {quote : Char} (hquote : quote ≠ '\n') (cs : List Char) :
    (quotedRest quote cs).EndsOnLine := by
  fun_induction quotedRest quote cs with
  | case1 => exact fun _ => .inl rfl
  | case2 cs => exact fun _ => .inr rfl
  | case3 => exact fun _ => .inl rfl
  | case4 c cs ih => exact ih.extend _
  | case5 cs => exact fun hlast => absurd (hlast quote rfl) hquote
  | case6 c cs _ _ _ _ ih => exact ih.extend _

theorem rawBodyRest_endsOnLine {closing : List Char} (hclosing : closing.getLast? = some '"')
    (cs : List Char) : (rawBodyRest closing cs).EndsOnLine := by
  fun_induction rawBodyRest closing cs with
  | case1 => exact fun _ => .inl rfl
  | case2 c cs _ =>
    intro hlast
    have hquote : (c :: closing).getLast? = some '"' := by
      rw [List.getLast?_cons, hclosing]
      rfl
    exact absurd (hlast '"' hquote) (by decide)
  | case3 c cs _ ih => exact ih.extend _

theorem rawRest_endsOnLine (delimiter cs : List Char) : (rawRest delimiter cs).EndsOnLine := by
  fun_induction rawRest delimiter cs with
  | case1 => exact fun _ => .inl rfl
  | case2 delimiter cs => exact (rawBodyRest_endsOnLine (by simp) cs).extend _
  | case3 delimiter c cs _ _ ih => exact ih.extend _
  | case4 delimiter c cs => exact quotedRest_endsOnLine (by decide) _

/-- Where no line feed was taken, the last character stands on the line of the rest. -/
theorem Cut.endsOnLine_of_notMem {cut : Cut} (hne : cut.taken ≠ []) (h : '\n' ∉ cut.taken) :
    cut.EndsOnLine := by
  intro hlast
  have hend := hlast _ (List.getLast?_eq_some_getLast hne)
  exact absurd (hend ▸ List.getLast_mem hne) h

/-- Whether a piece of text is a token of code. -/
def Shape.isCode : Shape → Bool
  | .blank | .directive | .lineComment | .blockComment => false
  | .identifier | .pathSeparator | .punctuation _ | .string | .character | .number => true

namespace Lexeme

theorem next_of_isBlank (fresh : Bool) {c : Char} (hc : isBlank c = true) (cs : List Char) :
    next fresh c cs = ⟨.blank, [c], cs⟩ := by
  simp [next, hc]

theorem isBlank_of_isCode {fresh : Bool} {c : Char} {cs : List Char}
    (h : (next fresh c cs).shape.isCode = true) : isBlank c = false := by
  by_contra hblank
  rw [next_of_isBlank fresh (by simpa using hblank)] at h
  cases h

theorem ofWord_endsOnLine {word : Cut} (hne : word.taken ≠ []) (h : '\n' ∉ word.taken) :
    (ofWord word).cut.EndsOnLine := by
  have hword : word.EndsOnLine := Cut.endsOnLine_of_notMem hne h
  unfold ofWord
  split
  · split
    · exact (rawRest_endsOnLine [] _).extend _
    split
    · exact (quotedRest_endsOnLine (by decide) _).extend _
    · exact hword
  · split
    · exact (quotedRest_endsOnLine (by decide) _).extend _
    · exact hword
  · exact hword

/-- A token of code ends with a character of the line on which reading goes on, or nothing is left on
that line. -/
theorem endsOnLine_next {fresh : Bool} {c : Char} {cs : List Char}
    (h : (next fresh c cs).shape.isCode = true) : (next fresh c cs).cut.EndsOnLine := by
  have hfeed : c ≠ '\n' := by
    rintro rfl
    exact absurd (isBlank_of_isCode h) (by decide)
  have hopening := opening_next fresh c cs
  generalize next fresh c cs = lexeme at h hopening
  cases hopening with
  | blank | directive | lineComment | blockComment => cases h
  | string => exact (quotedRest_endsOnLine (by decide) cs).extend _
  | character => exact (quotedRest_endsOnLine (by decide) cs).extend _
  | number =>
    refine Cut.endsOnLine_of_notMem (by simp [Cut.extend]) ?_
    simp only [Cut.extend, List.singleton_append, List.mem_cons, not_or]
    exact ⟨hfeed.symm, lineFeed_notMem_numberRest c cs⟩
  | word hstart =>
    refine ofWord_endsOnLine (by simp [Cut.extend]) ?_
    simp only [Cut.extend, List.singleton_append, List.mem_cons, not_or]
    refine ⟨hfeed.symm, fun hmem => ?_⟩
    exact absurd (takeRun_taken_all isIdentRest cs '\n' hmem) (by decide)
  | pathSeparator => exact Cut.endsOnLine_of_notMem (by simp) (by simp)
  | punctuation => exact Cut.endsOnLine_of_notMem (by simp) (by simpa using hfeed.symm)

end Lexeme

namespace Cursor

variable (here : Cursor) {lexeme : Lexeme}

theorem codeLine_past_of_isCode (h : lexeme.shape.isCode = true) :
    (here.past lexeme).codeLine = (here.past lexeme).position.line := by
  unfold past
  cases hshape : lexeme.shape <;> simp_all [Shape.isCode]

theorem codeLine_past_of_not_isCode (h : lexeme.shape.isCode = false) :
    (here.past lexeme).codeLine = here.codeLine := by
  unfold past
  cases hshape : lexeme.shape <;> simp_all [Shape.isCode]

/-- The tokens that are no comments are those of code. -/
theorem isComment_token? {token : Token} (h : here.token? lexeme = some token) :
    token.isComment = !lexeme.shape.isCode := by
  obtain ⟨kind, hkind, rfl⟩ := Option.map_eq_some_iff.1 h
  unfold kind? at hkind
  cases hshape : lexeme.shape with
  | blank | directive => simp [hshape] at hkind
  | _ =>
    obtain rfl : _ = kind := by simpa [hshape] using hkind
    rfl

theorem isSome_token?_of_isCode (h : lexeme.shape.isCode = true) :
    (here.token? lexeme).isSome = true := by
  unfold token? kind?
  cases hshape : lexeme.shape <;> simp_all [Shape.isCode]

end Cursor

theorem codeEndsOn_append {source : List Char} {line : Nat} {first second : List (Span × Token)} :
    CodeEndsOn source line (first ++ second) ↔
      CodeEndsOn source line first ∨ CodeEndsOn source line second := by
  simp only [CodeEndsOn, List.mem_append]
  constructor
  · rintro ⟨span, token, hmem | hmem, hcode⟩
    · exact .inl ⟨span, token, hmem, hcode⟩
    · exact .inr ⟨span, token, hmem, hcode⟩
  · rintro (⟨span, token, hmem, hcode⟩ | ⟨span, token, hmem, hcode⟩)
    · exact ⟨span, token, .inl hmem, hcode⟩
    · exact ⟨span, token, .inr hmem, hcode⟩

/-- Behind the tokens `earlier` of a source text, a cursor before `rest` knows whether code ends on its
line, as long as something is left there. -/
structure Cursor.Remembers (here : Cursor) (source : List Char) (earlier : List (Span × Token))
    (rest : List Char) : Prop where
  codeLine_le : here.codeLine ≤ here.position.line
  lastLine_le : ∀ span token, (span, token) ∈ earlier → span.lastLine source ≤ here.position.line
  onLine : ¬ AtLineEnd rest →
    (here.codeLine = here.position.line ↔ CodeEndsOn source here.position.line earlier)

theorem Cursor.remembers_start (source : List Char) : ({} : Cursor).Remembers source [] source where
  codeLine_le := Nat.zero_le _
  lastLine_le := by simp
  onLine := by simp [CodeEndsOn, Position.start]

section Step

variable {here : Cursor} {before cs : List Char} {c : Char} {earlier : List (Span × Token)}

/-- The line of the last character of a lexeme. -/
theorem Cursor.Stands.lastLine_spanBehind (h : here.Stands before (c :: cs)) {lexeme : Lexeme}
    (hlexeme : lexeme = Lexeme.next here.fresh c cs) :
    (spanBehind before lexeme).lastLine (before ++ c :: cs) =
      here.position.line + lexeme.text.dropLast.count '\n' := by
  have hwhole : lexeme.text ++ lexeme.rest = c :: cs := hlexeme ▸ Lexeme.text_append_rest ..
  have hpos : 0 < lexeme.text.length :=
    List.length_pos_iff.2 (hlexeme ▸ Lexeme.text_ne_nil here.fresh c cs)
  have htake : (before ++ c :: cs).take ((spanBehind before lexeme).stop - 1) =
      before ++ lexeme.text.dropLast := by
    have hstop : (spanBehind before lexeme).stop - 1 = before.length + (lexeme.text.length - 1) := by
      simp only [spanBehind]
      omega
    rw [hstop, ← hwhole, List.take_length_add_append, List.take_append_of_le_length (by omega),
      List.dropLast_eq_take]
  rw [Span.lastLine, lineAt, htake, h.position, Position.line_after, List.count_append,
    Nat.add_assoc]
  rfl

theorem Cursor.line_past_eq (here : Cursor) (lexeme : Lexeme) :
    (here.past lexeme).position.line = here.position.line + lexeme.text.count '\n' := by
  rw [Cursor.position_past, Position.line_after]

theorem Cursor.mem_placed? {here : Cursor} {before : List Char} {lexeme : Lexeme} {span : Span}
    {token : Token} : (span, token) ∈ (here.placed? before.length lexeme).toList ↔
      span = spanBehind before lexeme ∧ here.token? lexeme = some token := by
  rw [Option.mem_toList, Cursor.placed?, Option.map_eq_some_iff]
  constructor
  · rintro ⟨other, htoken, hpair⟩
    obtain ⟨rfl, rfl⟩ := Prod.mk.inj hpair
    exact ⟨rfl, htoken⟩
  · rintro ⟨rfl, htoken⟩
    exact ⟨token, htoken, rfl⟩

/-- A lexeme of code ends on the line on which reading goes on, if something is left there. -/
theorem Cursor.codeEndsOn_placed? {source : List Char} {lexeme : Lexeme}
    (hlast : (spanBehind before lexeme).lastLine source =
      here.position.line + lexeme.text.dropLast.count '\n')
    (hcode : lexeme.shape.isCode = true) (hends : lexeme.cut.EndsOnLine)
    (hrest : ¬ AtLineEnd lexeme.rest) :
    CodeEndsOn source (here.past lexeme).position.line
      (here.placed? before.length lexeme).toList := by
  obtain ⟨token, htoken⟩ := Option.isSome_iff_exists.1 (here.isSome_token?_of_isCode hcode)
  -- Something is left on the line, so that the last character is no line feed.
  obtain ⟨d, hd, hfeed⟩ : ∃ d ∈ lexeme.text.getLast?, d ≠ '\n' := by
    by_contra hnone
    push Not at hnone
    exact hrest (hends hnone)
  have hcount : lexeme.text.dropLast.count '\n' = lexeme.text.count '\n' := by
    obtain ⟨front, htail⟩ := List.getLast?_eq_some_iff.1 hd
    simp [htail, hfeed]
  refine ⟨_, token, Cursor.mem_placed?.2 ⟨rfl, htoken⟩, ?_, ?_⟩
  · rw [here.isComment_token? htoken, hcode]
    rfl
  · rw [hlast, hcount, here.line_past_eq]

/-- No code ends with a comment, a directive or a blank. -/
theorem Cursor.not_codeEndsOn_placed? {lexeme : Lexeme} (hcode : lexeme.shape.isCode = false)
    (source : List Char) (line : Nat) :
    ¬ CodeEndsOn source line (here.placed? before.length lexeme).toList := by
  rintro ⟨span, token, hmem, hnot, -⟩
  rw [here.isComment_token? (Cursor.mem_placed?.1 hmem).2, hcode] at hnot
  cases hnot

/-- Reading a lexeme keeps what a cursor remembers up to date. -/
theorem Cursor.Remembers.past (hstands : here.Stands before (c :: cs))
    (h : here.Remembers (before ++ c :: cs) earlier (c :: cs)) :
    (here.past (Lexeme.next here.fresh c cs)).Remembers (before ++ c :: cs)
      (earlier ++ (here.placed? before.length (Lexeme.next here.fresh c cs)).toList)
      (Lexeme.next here.fresh c cs).rest := by
  have hlast := hstands.lastLine_spanBehind rfl
  have hends : (Lexeme.next here.fresh c cs).shape.isCode = true →
      (Lexeme.next here.fresh c cs).cut.EndsOnLine := Lexeme.endsOnLine_next
  have htext : (Lexeme.next here.fresh c cs).text.head? = some c := Lexeme.head?_text_next ..
  generalize Lexeme.next here.fresh c cs = lexeme at *
  have hline := here.line_past_eq lexeme
  have hlastLine : ∀ span token,
      (span, token) ∈ earlier ++ (here.placed? before.length lexeme).toList →
        span.lastLine (before ++ c :: cs) ≤ (here.past lexeme).position.line := by
    intro span token hmem
    obtain hmem | hmem := List.mem_append.1 hmem
    · have hle := h.lastLine_le span token hmem
      omega
    · obtain ⟨rfl, -⟩ := Cursor.mem_placed?.1 hmem
      have hcount := (List.dropLast_sublist lexeme.text).count_le '\n'
      omega
  have hle := h.codeLine_le
  cases hcode : lexeme.shape.isCode with
  | true =>
    have hcodeLine := here.codeLine_past_of_isCode hcode
    refine ⟨Nat.le_of_eq hcodeLine, hlastLine, fun hrest => iff_of_true hcodeLine ?_⟩
    exact codeEndsOn_append.2 (.inr (Cursor.codeEndsOn_placed? hlast hcode (hends hcode) hrest))
  | false =>
    have hcodeLine := here.codeLine_past_of_not_isCode hcode
    refine ⟨by omega, hlastLine, fun _ => ?_⟩
    rw [codeEndsOn_append, or_iff_left (Cursor.not_codeEndsOn_placed? hcode _ _), hcodeLine]
    by_cases hfeed : '\n' ∈ lexeme.text
    · -- The line is a new one, and all code ended before it.
      have hcount := List.count_pos_iff.2 hfeed
      refine iff_of_false (by omega) ?_
      rintro ⟨span, token, hmem, -, hon⟩
      have hbefore := h.lastLine_le span token hmem
      omega
    · rw [hline, List.count_eq_zero.2 hfeed, Nat.add_zero]
      apply h.onLine
      rw [atLineEnd_cons]
      rintro rfl
      exact hfeed (List.mem_of_head? htext)

end Step

/-- A comment that is read where a cursor stands is trailing if code ends on the line of the cursor. -/
theorem Cursor.Remembers.trailing_iff {here : Cursor} {source cs : List Char} {c : Char}
    {earlier : List (Span × Token)} (h : here.Remembers source earlier (c :: cs))
    {comment : Comment} {position : Position}
    (htoken : here.token? (.next here.fresh c cs) = some ⟨.comment comment, position⟩) :
    comment.trailing = true ↔ CodeEndsOn source position.line earlier := by
  have hrest : ¬ AtLineEnd (c :: cs) := by
    rw [atLineEnd_cons]
    rintro rfl
    cases htoken
  obtain ⟨kind, hkind, htoken⟩ := Option.map_eq_some_iff.1 htoken
  obtain ⟨rfl, rfl⟩ := Token.mk.inj htoken
  rw [← h.onLine hrest]
  unfold kind? at hkind
  split at hkind
  all_goals try cases hkind
  · exact decide_eq_true_iff
  · exact decide_eq_true_iff

/-- What a cursor remembers is right for every comment that is read from it on. -/
theorem Cursor.Remembers.trailing_placed {here : Cursor} {before input : List Char}
    {earlier : List (Span × Token)} (hstands : here.Stands before input)
    (h : here.Remembers (before ++ input) earlier input) {front later : List (Span × Token)}
    {span : Span} {comment : Comment} {position : Position}
    (hplaced : here.placed before.length input =
      front ++ (span, ⟨.comment comment, position⟩) :: later) :
    comment.trailing = true ↔ CodeEndsOn (before ++ input) position.line (earlier ++ front) := by
  generalize hoffset : before.length = offset at hplaced
  fun_induction Cursor.placed here offset input generalizing before earlier front with
  | case1 => simp at hplaced
  | case2 here offset c cs lexeme =>
    rename_i ih
    subst hoffset
    have hwhole : lexeme.text ++ lexeme.rest = c :: cs := Lexeme.text_append_rest ..
    have hbehind : (here.past lexeme).Stands (before ++ lexeme.text) lexeme.rest := hstands.past
    have hnext : (here.past lexeme).Remembers (before ++ lexeme.text ++ lexeme.rest)
        (earlier ++ (here.placed? before.length lexeme).toList) lexeme.rest := by
      rw [List.append_assoc, hwhole]
      exact h.past hstands
    have hlength : (before ++ lexeme.text).length = before.length + lexeme.text.length :=
      List.length_append ..
    cases hfirst : here.placed? before.length lexeme with
    | none =>
      rw [hfirst] at hplaced hnext
      simpa [hwhole] using ih hbehind hnext hlength hplaced
    | some first =>
      rw [hfirst] at hplaced hnext
      cases front with
      | nil =>
        obtain ⟨rfl, -⟩ := List.cons.inj hplaced
        obtain ⟨token, htoken, hpair⟩ := Option.map_eq_some_iff.1 hfirst
        obtain ⟨-, rfl⟩ := Prod.mk.inj hpair
        rw [List.append_nil]
        exact h.trailing_iff htoken
      | cons other front =>
        obtain ⟨rfl, htail⟩ := List.cons.inj hplaced
        simpa [hwhole] using ih hbehind hnext hlength htail

/-- A comment is trailing exactly if an earlier token that is no comment has its last character on the
line on which the comment starts. -/
theorem trailing_iff_codeEndsOn (source : String) :
    (placedTokens source).map (·.2) = tokenize source ∧
    Tiles source.toList 0 (placedTokens source) ∧
    ∀ earlier span comment position later,
      placedTokens source = earlier ++ (span, ⟨.comment comment, position⟩) :: later →
        (comment.trailing = true ↔ CodeEndsOn source.toList position.line earlier) := by
  have hstands := Cursor.stands_start source.toList
  refine ⟨Cursor.map_placed {} 0 source.toList, hstands.tiles_placed, ?_⟩
  intro earlier span comment position later hplaced
  exact (Cursor.remembers_start source.toList).trailing_placed hstands hplaced

/-- A raw string of two lines with a comment behind it, and comments below a directive. -/
def mixedLines : String :=
  "R\"(\n)\" // a\n#if 0\n/*\n*/ // b"

/-- Its tokens. -/
def mixedTokens : List (Span × Token) :=
  [(⟨0, 6⟩, ⟨.string, ⟨1, 1⟩⟩),
   (⟨7, 11⟩, ⟨.comment ⟨"// a", .line, true, 2⟩, ⟨2, 4⟩⟩),
   (⟨18, 23⟩, ⟨.comment ⟨"/*\n*/", .block, false, 5⟩, ⟨4, 1⟩⟩),
   (⟨24, 28⟩, ⟨.comment ⟨"// b", .line, false, 5⟩, ⟨5, 4⟩⟩)]

theorem trailing_iff_codeEndsOn_mixedLines :
    placedTokens mixedLines = mixedTokens ∧
    CodeEndsOn mixedLines.toList 2 (mixedTokens.take 1) ∧
    ¬ CodeEndsOn mixedLines.toList 5 (mixedTokens.take 3) := by
  have hplaced : placedTokens mixedLines = mixedTokens := by decide +kernel
  obtain ⟨-, -, htrailing⟩ := trailing_iff_codeEndsOn mixedLines
  refine ⟨hplaced, ?_, ?_⟩
  · exact (htrailing (mixedTokens.take 1) ⟨7, 11⟩ ⟨"// a", .line, true, 2⟩ ⟨2, 4⟩
      (mixedTokens.drop 2) hplaced).1 rfl
  · exact mt (htrailing (mixedTokens.take 3) ⟨24, 28⟩ ⟨"// b", .line, false, 5⟩ ⟨5, 4⟩ [] hplaced).2
      Bool.false_ne_true

end EnumConverter.Source
