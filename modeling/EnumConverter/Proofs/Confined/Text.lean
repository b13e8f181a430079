import EnumConverter.Proofs.Emit.Literal
import EnumConverter.Proofs.Spelling.Tokens
import Mathlib.Data.List.Basic

namespace EnumConverter.Source

open Text

/-- What a token is and the line on which it stands, without its column. -/
def Token.onLine (token : Token) : TokenKind × Nat :=
  (token.kind, token.position.line)

namespace Cursor

/-- Two cursors that differ in their columns only. -/
structure Agrees (here there : Cursor) : Prop where
  line : here.position.line = there.position.line
  fresh : here.fresh = there.fresh
  codeLine : here.codeLine = there.codeLine

/-- The tokens of a text that is read from here, without their columns. -/
def onLines (here : Cursor) (text : List Char) : List (TokenKind × Nat) :=
  (here.tokens text).map Token.onLine

theorem onLines_cons (here : Cursor) (c : Char) (cs : List Char) :
    here.onLines (c :: cs) =
      ((here.kind? (Lexeme.next here.fresh c cs)).map (·, here.position.line)).toList ++
        (here.past (Lexeme.next here.fresh c cs)).onLines (Lexeme.next here.fresh c cs).rest := by
  rw [onLines, tokens_cons, List.map_append, token?]
  cases here.kind? (Lexeme.next here.fresh c cs) <;> rfl

namespace Agrees

variable {here there : Cursor} (h : here.Agrees there)
include h

/-- The line behind a text does not depend on the column before it. -/
theorem line_after (text : List Char) :
    (here.position.after text).line = (there.position.after text).line := by
  rw [Position.line_after, Position.line_after, h.line]

theorem kind?_eq (lexeme : Lexeme) : here.kind? lexeme = there.kind? lexeme := by
  unfold kind?
  split <;> simp only [comment, h.line, h.codeLine, h.line_after]

theorem past (lexeme : Lexeme) : (here.past lexeme).Agrees (there.past lexeme) := by
  have hline := h.line_after lexeme.text
  obtain ⟨-, hfresh, hcode⟩ := h
  unfold Cursor.past
  dsimp only
  split
  · exact ⟨hline, by rw [hfresh], hcode⟩
  · exact ⟨hline, hfresh, hcode⟩
  · exact ⟨hline, rfl, hcode⟩
  · exact ⟨hline, rfl, hcode⟩
  · exact ⟨hline, rfl, hline⟩

theorem pastCode {text text' : List Char} (htext : '\n' ∉ text) (htext' : '\n' ∉ text') :
    (here.pastCode text).Agrees (there.pastCode text') := by
  have hline : (here.position.after text).line = (there.position.after text').line := by
    rw [Position.line_after_of_notMem _ htext, Position.line_after_of_notMem _ htext', h.line]
  exact ⟨hline, rfl, hline⟩

end Agrees

end Cursor

/-- Two texts are read alike from cursors that agree, up to cursors that agree again. -/
def Alike (first second : List Char) : Prop :=
  ∀ here here' : Cursor, here.Agrees here' → ∃ (there there' : Cursor) (seen : List (TokenKind × Nat)),
    there.Agrees there' ∧
      (∀ rest, here.onLines (first ++ rest) = seen ++ there.onLines rest) ∧
      ∀ rest, here'.onLines (second ++ rest) = seen ++ there'.onLines rest

namespace Alike

theorem nil : Alike [] [] :=
  fun here here' h => ⟨here, here', [], h, fun _ => rfl, fun _ => rfl⟩

theorem append {first second first' second' : List Char} (hfirst : Alike first first')
    (hsecond : Alike second second') : Alike (first ++ second) (first' ++ second') := by
  intro here here' h
  obtain ⟨middle, middle', seen, hmiddle, hread, hread'⟩ := hfirst here here' h
  obtain ⟨there, there', more, hthere, hmore, hmore'⟩ := hsecond middle middle' hmiddle
  refine ⟨there, there', seen ++ more, hthere, ?_, ?_⟩
  · intro rest
    rw [List.append_assoc, hread, hmore, List.append_assoc]
  · intro rest
    rw [List.append_assoc, hread', hmore', List.append_assoc]

theorem followed {first second first' second' : String} (hfirst : Alike first.toList first'.toList)
    (hsecond : Alike second.toList second'.toList) :
    Alike (first ++ second).toList (first' ++ second').toList := by
  rw [String.toList_append, String.toList_append]
  exact hfirst.append hsecond

/-- A text that starts with a lexeme and is read alike behind it. -/
theorem of_next {c : Char} {cs : List Char} {shape : Shape} {taken left : List Char}
    (hnext : ∀ fresh rest, Lexeme.next fresh c (cs ++ rest) = ⟨shape, taken, left ++ rest⟩)
    (hleft : Alike left left) : Alike (c :: cs) (c :: cs) := by
  intro here here' h
  let lexeme : Lexeme := ⟨shape, taken, []⟩
  -- Neither the kind nor the cursor behind a lexeme looks at what is left.
  have hread (cursor : Cursor) (rest : List Char) : cursor.onLines (c :: cs ++ rest) =
      ((cursor.kind? lexeme).map (·, cursor.position.line)).toList ++
        (cursor.past lexeme).onLines (left ++ rest) := by
    rw [List.cons_append, Cursor.onLines_cons, hnext]
    rfl
  obtain ⟨there, there', seen, hthere, hseen, hseen'⟩ := hleft _ _ (h.past lexeme)
  refine ⟨there, there', ((here.kind? lexeme).map (·, here.position.line)).toList ++ seen, hthere,
    ?_, ?_⟩
  · intro rest
    rw [hread, hseen, List.append_assoc]
  · intro rest
    rw [hread, hseen', ← h.kind?_eq, ← h.line, List.append_assoc]

end Alike

theorem onLines_quote (here : Cursor) (value : String) (rest : List Char) :
    here.onLines ((Emit.quote value).toList ++ rest) =
      (.string, here.position.line) :: (here.pastCode (Emit.quote value).toList).onLines rest := by
  have htext : (Emit.quote value).toList =
      '"' :: (value.toList.flatMap Emit.escapeChar ++ ['"']) := by
    simp [Emit.quote, Emit.quoteChars]
  have hclosed := Scan.quotedRest_value value.toList rest
  rw [List.append_cons] at hclosed
  rw [htext, Cursor.onLines, List.cons_append, here.tokens_string hclosed]
  rfl

/-- Any two literals are alike: each is one token and stays on its line. -/
theorem alike_quote (value value' : String) :
    Alike (Emit.quote value).toList (Emit.quote value').toList := by
  intro here here' h
  refine ⟨here.pastCode (Emit.quote value).toList, here'.pastCode (Emit.quote value').toList,
    [(.string, here.position.line)], ?_, ?_, ?_⟩
  · exact h.pastCode (Emit.lineFeed_notMem_quote value) (Emit.lineFeed_notMem_quote value')
  · exact onLines_quote here value
  · rw [h.line]
    exact onLines_quote here' value'

/-- Characters that can open a literal, a comment or a directive. -/
def openers : List Char := ['"', '\'', '/', '#']

/-- Whether a token ends with this character, whatever follows. -/
def endsToken (c : Char) : Bool :=
  isBlank c || (c ∈ Lexeme.marks && c ≠ '+')

theorem isNumberPart_of_isBlank {c : Char} (h : isBlank c = true) :
    isNumberPart c = false ∧ c ≠ '+' ∧ c ≠ '-' := by
  have hother : ∀ d, isBlank d = false → c ≠ d := by
    rintro d hd rfl
    rw [h] at hd
    contradiction
  have hword : c.isAlphanum = false := by
    rw [Bool.eq_false_iff]
    intro hword
    rw [isBlank_of_isIdentRest (isIdentRest_of_isAlphanum hword)] at h
    contradiction
  simp [isNumberPart, hword, hother '.' (by decide), hother '\'' (by decide), hother '_' (by decide),
    hother '+' (by decide), hother '-' (by decide)]

theorem isNumberPart_of_endsToken {c : Char} (h : endsToken c = true) :
    isNumberPart c = false ∧ c ≠ '+' ∧ c ≠ '-' := by
  have hmark : Lexeme.marks.all (fun d => !isNumberPart d && d ≠ '-') = true := by decide
  simp only [endsToken, Bool.or_eq_true, Bool.and_eq_true, decide_eq_true_eq] at h
  obtain h | ⟨hmem, hplus⟩ := h
  · exact isNumberPart_of_isBlank h
  · obtain ⟨hpart, hminus⟩ : isNumberPart c = false ∧ c ≠ '-' := by
      simpa using List.all_eq_true.1 hmark c hmem
    exact ⟨hpart, hplus, hminus⟩

theorem isIdentRest_of_endsToken {c : Char} (h : endsToken c = true) : isIdentRest c = false := by
  have hmark : Lexeme.marks.all (!isIdentRest ·) = true := by decide
  simp only [endsToken, Bool.or_eq_true, Bool.and_eq_true, decide_eq_true_eq] at h
  obtain h | ⟨hmem, -⟩ := h
  · rw [Bool.eq_false_iff]
    intro hrest
    rw [isBlank_of_isIdentRest hrest] at h
    contradiction
  · simpa using List.all_eq_true.1 hmark c hmem

/-- A run of characters that leaves something is the same run when more follows. -/
theorem takeRun_append {test : Char → Bool} {cs : List Char} (h : (takeRun test cs).rest ≠ [])
    (more : List Char) :
    takeRun test (cs ++ more) = ⟨(takeRun test cs).taken, (takeRun test cs).rest ++ more⟩ := by
  induction cs with
  | nil => exact absurd rfl h
  | cons c cs ih =>
    by_cases hc : test c = true
    · simp only [takeRun, hc, if_true, Cut.extend, List.cons_append] at h ⊢
      rw [ih h]
    · simp [takeRun, hc]

theorem takeRun_rest_ne_nil {test : Char → Bool} {cs : List Char} {c : Char} (hmem : c ∈ cs)
    (hc : test c = false) : (takeRun test cs).rest ≠ [] := by
  intro hnil
  have hwhole := whole_takeRun test cs
  rw [Cut.whole, hnil, List.append_nil] at hwhole
  rw [← hwhole] at hmem
  simp [takeRun_taken_all test cs c hmem] at hc

theorem numberRest_append {previous : Char} {cs : List Char} (h : (numberRest previous cs).rest ≠ [])
    (more : List Char) :
    numberRest previous (cs ++ more) =
      ⟨(numberRest previous cs).taken, (numberRest previous cs).rest ++ more⟩ := by
  induction cs generalizing previous with
  | nil => exact absurd rfl h
  | cons c cs ih =>
    by_cases hc : (isNumberPart c || ((c = '+' || c = '-') && isExponentMark previous)) = true
    · simp only [numberRest, hc, if_true, Cut.extend, List.cons_append] at h ⊢
      rw [ih h]
    · simp [numberRest, hc]

theorem numberRest_rest_ne_nil (previous : Char) {c : Char} {cs : List Char} (hmem : c ∈ cs)
    (hc : isNumberPart c = false ∧ c ≠ '+' ∧ c ≠ '-') : (numberRest previous cs).rest ≠ [] := by
  induction cs generalizing previous with
  | nil => simp at hmem
  | cons d cs ih =>
    by_cases hd : (isNumberPart d || ((d = '+' || d = '-') && isExponentMark previous)) = true
    · have hne : c ≠ d := by
        rintro rfl
        simp [hc] at hd
      simp only [numberRest, hd, if_true, Cut.extend]
      exact ih d ((List.mem_cons.1 hmem).resolve_left hne)
    · simp [numberRest, hd]

/-- Code without openers starts with a lexeme that does not depend on what follows the code, if it is
more than one character and ends with a token of its own. -/
theorem next_plain {c d : Char} {ds : List Char} (hplain : ∀ e ∈ c :: d :: ds, e ∉ openers)
    (hlast : (d :: ds).getLast?.any endsToken = true) :
    ∃ shape taken left, left ≠ [] ∧ left <:+ d :: ds ∧ ∀ fresh rest,
      Lexeme.next fresh c (d :: ds ++ rest) = ⟨shape, taken, left ++ rest⟩ := by
  obtain ⟨last, hlast', hends⟩ := (Option.any_eq_true ..).1 hlast
  have hmem : last ∈ d :: ds := List.mem_of_getLast? hlast'
  have hc := hplain c (by simp)
  simp only [openers, List.mem_cons, List.not_mem_nil, or_false, not_or] at hc
  obtain ⟨hquote, hprime, hslash, hsign⟩ := hc
  -- How a lexeme starts is decided by the first two characters, which are both at hand.
  have hfits := Lexeme.Start.of_fits true c (some d)
  have hnext (fresh : Bool) (rest : List Char) : Lexeme.next fresh c (d :: ds ++ rest) =
      (Lexeme.Start.of true c (some d)).read c (d :: ds ++ rest) := by
    rw [Lexeme.next_eq_read, Lexeme.Start.of_congr_fresh hsign fresh true]
    rfl
  generalize Lexeme.Start.of true c (some d) = start at hfits hnext
  cases start with
  | blank => exact ⟨.blank, [c], d :: ds, by simp, List.suffix_rfl, hnext⟩
  | directive => exact absurd hfits.1 hsign
  | lineComment | blockComment => exact absurd hfits.1 hslash
  | string => exact absurd hfits hquote
  | character => exact absurd hfits hprime
  | number =>
    have hne := numberRest_rest_ne_nil c hmem (isNumberPart_of_endsToken hends)
    refine ⟨.number, c :: (numberRest c (d :: ds)).taken, (numberRest c (d :: ds)).rest, hne,
      ⟨_, whole_numberRest c (d :: ds)⟩, fun fresh rest => ?_⟩
    rw [hnext, Lexeme.Start.read, numberRest_append hne]
    rfl
  | word =>
    have hne := takeRun_rest_ne_nil hmem (isIdentRest_of_endsToken hends)
    have hsuffix : (takeRun isIdentRest (d :: ds)).rest <:+ d :: ds := ⟨_, whole_takeRun _ _⟩
    refine ⟨.identifier, c :: (takeRun isIdentRest (d :: ds)).taken,
      (takeRun isIdentRest (d :: ds)).rest, hne, hsuffix, fun fresh rest => ?_⟩
    have hstop : StopsWord ((takeRun isIdentRest (d :: ds)).rest ++ rest) := by
      intro e he
      rw [List.head?_append_of_ne_nil _ hne] at he
      have hopener := hplain e (List.mem_cons_of_mem _ (hsuffix.subset (List.mem_of_mem_head? he)))
      simp only [openers, List.mem_cons, not_or] at hopener
      exact ⟨takeRun_rest_head isIdentRest (d :: ds) e he, hopener.1, hopener.2.1⟩
    rw [hnext, Lexeme.Start.read, takeRun_append hne]
    exact Lexeme.ofWord_stop hstop
  | pathSeparator =>
    refine ⟨.pathSeparator, [c, d], ds, ?_, List.suffix_cons .., hnext⟩
    rintro rfl
    obtain rfl : d = last := by simpa using hlast'
    obtain rfl : d = ':' := by simpa using hfits.2
    exact absurd hends (by decide)
  | punctuation => exact ⟨.punctuation c, [c], d :: ds, by simp, List.suffix_rfl, hnext⟩

/-- A character that ends a token is one on its own. -/
theorem next_endsToken {c : Char} (h : endsToken c = true) :
    ∃ shape, ∀ fresh rest, Lexeme.next fresh c rest = ⟨shape, [c], rest⟩ := by
  simp only [endsToken, Bool.or_eq_true, Bool.and_eq_true, decide_eq_true_eq] at h
  obtain hblank | ⟨hmark, -⟩ := h
  · exact ⟨.blank, fun fresh rest => by rw [Lexeme.next, if_pos hblank]⟩
  · exact ⟨.punctuation c, fun fresh rest => Lexeme.next_mark fresh hmark rest⟩

/-- Code without openers that ends with a token is like itself. -/
theorem alike_plain {text : List Char} (hplain : ∀ c ∈ text, c ∉ openers)
    (hlast : text.getLast?.any endsToken = true) : Alike text text := by
  induction hlength : text.length using Nat.strongRecOn generalizing text with
  | ind length ih =>
    match text with
    | [] => exact .nil
    | [c] =>
      obtain ⟨shape, hnext⟩ := next_endsToken (by simpa using hlast)
      have hnext' : ∀ fresh rest, Lexeme.next fresh c ([] ++ rest) = ⟨shape, [c], [] ++ rest⟩ := hnext
      exact .of_next hnext' .nil
    | c :: d :: ds =>
      obtain ⟨shape, taken, left, hne, hsuffix, hnext⟩ :=
        next_plain hplain (by simpa using hlast)
      refine .of_next hnext (ih left.length ?_ ?_ ?_ rfl)
      · have := hsuffix.length_le
        simp only [List.length_cons] at this hlength
        omega
      · exact fun e he => hplain e (List.mem_cons_of_mem _ (hsuffix.subset he))
      · obtain ⟨before, hbefore⟩ := hsuffix
        rw [List.getLast?_cons_cons, ← hbefore, List.getLast?_append_of_ne_nil _ hne] at hlast
        exact hlast

theorem notMem_openers_of_isBlank {c : Char} (h : isBlank c = true) : c ∉ openers := by
  have hopeners : openers.all (!isBlank ·) = true := by decide
  intro hmem
  have hc : isBlank c = false := by simpa using List.all_eq_true.1 hopeners c hmem
  rw [hc] at h
  contradiction

theorem alike_blanks {text : List Char} (h : ∀ c ∈ text, isBlank c = true) : Alike text text := by
  cases text with
  | nil => exact .nil
  | cons c cs =>
    refine alike_plain (fun d hd => notMem_openers_of_isBlank (h d hd)) ?_
    rw [List.getLast?_eq_some_getLast (List.cons_ne_nil c cs), Option.any_some, endsToken,
      h _ (List.getLast_mem _), Bool.true_or]

theorem alike_lineFeed : Alike ['\n'] ['\n'] :=
  alike_blanks (List.forall_mem_singleton.2 (by decide))

theorem alike_lineComment {text : List Char} (htext : '\n' ∉ text) :
    Alike ('/' :: '/' :: text ++ ['\n']) ('/' :: '/' :: text ++ ['\n']) := by
  have hnext (fresh : Bool) (rest : List Char) :
      Lexeme.next fresh '/' ('/' :: text ++ ['\n'] ++ rest) =
        ⟨.lineComment, '/' :: '/' :: text, ['\n'] ++ rest⟩ := by
    change Lexeme.mk .lineComment ((lineCommentRest ('/' :: text ++ ['\n'] ++ rest)).extend ['/']) = _
    rw [List.append_assoc, Cursor.lineCommentRest_append (by simpa using htext) (.inr rfl)]
    rfl
  exact .of_next hnext alike_lineFeed

end EnumConverter.Source
