import EnumConverter.Proofs.Lexer.Shape

namespace EnumConverter.Text

/-- A text with a carriage return before every line feed. -/
def withReturns (cs : List Char) : List Char :=
  cs.flatMap fun c => if c = '\n' then ['\r', '\n'] else [c]

@[simp] theorem withReturns_nil : withReturns [] = [] := rfl

@[simp] theorem withReturns_lineFeed (cs : List Char) :
    withReturns ('\n' :: cs) = '\r' :: '\n' :: withReturns cs := rfl

theorem withReturns_cons {c : Char} (hc : c ≠ '\n') (cs : List Char) :
    withReturns (c :: cs) = c :: withReturns cs := by
  simp [withReturns, hc]

theorem withReturns_append (first second : List Char) :
    withReturns (first ++ second) = withReturns first ++ withReturns second :=
  List.flatMap_append

theorem withReturns_eq_self {cs : List Char} (h : '\n' ∉ cs) : withReturns cs = cs := by
  induction cs with
  | nil => rfl
  | cons c cs ih =>
    rw [List.mem_cons, not_or] at h
    rw [withReturns_cons (Ne.symm h.1), ih h.2]

/-- Whether a text starts with a character that ends no line does not depend on the returns. -/
theorem head?_withReturns {d : Char} (hfeed : d ≠ '\n') (hreturn : d ≠ '\r') (cs : List Char) :
    (withReturns cs).head? = some d ↔ cs.head? = some d := by
  cases cs with
  | nil => rfl
  | cons c cs =>
    by_cases hc : c = '\n'
    · subst hc
      simp [Ne.symm hfeed, Ne.symm hreturn]
    · rw [withReturns_cons hc]
      rfl

end EnumConverter.Text

namespace EnumConverter.Source

open Text

namespace Cut

/-- How the text with returns is cut where the text itself is cut: in the same place, or, at the end of
a line, between the return and the line feed. -/
inductive Returned : Cut → Cut → Prop
  | same (taken rest : List Char) : Returned ⟨taken, rest⟩ ⟨withReturns taken, withReturns rest⟩
  | lineEnd (taken rest : List Char) :
      Returned ⟨taken, '\n' :: rest⟩ ⟨withReturns taken ++ ['\r'], '\n' :: withReturns rest⟩

theorem Returned.extend {cut cut' : Cut} (h : Returned cut cut') (start : List Char) :
    Returned (cut.extend start) (cut'.extend (withReturns start)) := by
  cases h with
  | same taken rest =>
    simp only [Cut.extend, ← withReturns_append]
    exact .same ..
  | lineEnd taken rest =>
    simp only [Cut.extend, ← List.append_assoc, ← withReturns_append]
    exact .lineEnd ..

theorem Returned.extend_self {cut cut' : Cut} (h : Returned cut cut') {start : List Char}
    (hstart : '\n' ∉ start) : Returned (cut.extend start) (cut'.extend start) := by
  simpa only [withReturns_eq_self hstart] using h.extend start

end Cut

theorem takeRun_withReturns {test : Char → Bool} (hfeed : test '\n' = false)
    (hreturn : test '\r' = false) (cs : List Char) :
    takeRun test (withReturns cs) = ⟨(takeRun test cs).taken, withReturns (takeRun test cs).rest⟩ := by
  induction cs with
  | nil => rfl
  | cons c cs ih =>
    by_cases hc : c = '\n'
    · subst hc
      simp [takeRun, hfeed, hreturn]
    · rw [withReturns_cons hc, takeRun, takeRun, ih]
      split
      · rfl
      · rw [withReturns_cons hc]

theorem numberRest_withReturns (previous : Char) (cs : List Char) :
    numberRest previous (withReturns cs) =
      ⟨(numberRest previous cs).taken, withReturns (numberRest previous cs).rest⟩ := by
  have hfeed : isNumberPart '\n' = false := by decide
  have hreturn : isNumberPart '\r' = false := by decide
  induction cs generalizing previous with
  | nil => rfl
  | cons c cs ih =>
    by_cases hc : c = '\n'
    · subst hc
      simp [numberRest, hfeed, hreturn]
    · rw [withReturns_cons hc, numberRest, numberRest, ih]
      split
      · rfl
      · rw [withReturns_cons hc]

theorem blockCommentRest_withReturns (cs : List Char) :
    blockCommentRest (withReturns cs) =
      ⟨withReturns (blockCommentRest cs).taken, withReturns (blockCommentRest cs).rest⟩ := by
  fun_induction blockCommentRest cs with
  | case1 => rfl
  | case2 cs => rfl
  | case3 c cs hopen ih =>
    have hclosed : ¬ (c = '*' ∧ cs.head? = some '/') := not_closes hopen
    by_cases hc : c = '\n'
    · subst hc
      rw [withReturns_lineFeed, blockCommentRest_cons (by simp), blockCommentRest_cons (by simp), ih]
      rfl
    · rw [withReturns_cons hc, blockCommentRest_cons, ih]
      · simp only [Cut.extend, List.singleton_append, withReturns_cons hc]
      · rwa [head?_withReturns (by decide) (by decide)]

/-- A closing delimiter without line ends stands at the start of a text with returns if and only if it
stands at the start of the text. -/
theorem isPrefixOf_withReturns {closing : List Char} (hfeed : '\n' ∉ closing)
    (hreturn : '\r' ∉ closing) (cs : List Char) :
    closing.isPrefixOf (withReturns cs) = closing.isPrefixOf cs := by
  induction closing generalizing cs with
  | nil => rfl
  | cons d closing ih =>
    rw [List.mem_cons, not_or] at hfeed hreturn
    cases cs with
    | nil => rfl
    | cons c cs =>
      by_cases hc : c = '\n'
      · subst hc
        have hne : (d == '\n') = false ∧ (d == '\r') = false := by
          simp [Ne.symm hfeed.1, Ne.symm hreturn.1]
        simp [List.isPrefixOf, hne]
      · rw [withReturns_cons hc, List.isPrefixOf, List.isPrefixOf, ih hfeed.2 hreturn.2]

theorem rawBodyRest_withReturns {closing : List Char} (hfeed : '\n' ∉ closing)
    (hreturn : '\r' ∉ closing) (cs : List Char) :
    rawBodyRest closing (withReturns cs) =
      ⟨withReturns (rawBodyRest closing cs).taken, withReturns (rawBodyRest closing cs).rest⟩ := by
  have hsame := isPrefixOf_withReturns hfeed hreturn
  fun_induction rawBodyRest closing cs with
  | case1 => rfl
  | case2 c cs hclosing =>
    obtain ⟨rfl, hend⟩ : c = ')' ∧ closing.isPrefixOf cs = true := by simpa using hclosing
    obtain ⟨tail, rfl⟩ := List.isPrefixOf_iff_prefix.1 hend
    rw [withReturns_cons (by decide), rawBodyRest, if_pos (by simp [hsame]), withReturns_append,
      withReturns_eq_self hfeed, withReturns_cons (by decide), withReturns_eq_self hfeed]
    simp
  | case3 c cs hopen ih =>
    by_cases hc : c = '\n'
    · subst hc
      rw [withReturns_lineFeed, rawBodyRest, if_neg (by simp), rawBodyRest, if_neg (by simp), ih]
      rfl
    · rw [withReturns_cons hc, rawBodyRest, if_neg (by rwa [hsame]), ih]
      simp only [Cut.extend, List.singleton_append, withReturns_cons hc]

theorem lineCommentRest_returned (cs : List Char) :
    (lineCommentRest cs).Returned (lineCommentRest (withReturns cs)) := by
  unfold lineCommentRest
  induction cs with
  | nil => exact .same [] []
  | cons c cs ih =>
    by_cases hc : c = '\n'
    · subst hc
      exact .lineEnd [] cs
    · rw [withReturns_cons hc, takeRun, takeRun, if_pos (by simpa using hc), if_pos (by simpa using hc)]
      exact ih.extend_self (by simpa using Ne.symm hc)

theorem directiveRest_cons {c : Char} {cs : List Char} (hfeed : c ≠ '\n')
    (hescape : ¬ (c = '\\' ∧ (cs.head? = some '\n' ∨ ['\r', '\n'] <+: cs))) :
    directiveRest (c :: cs) = (directiveRest cs).extend [c] := by
  rw [directiveRest.eq_def]
  split
  · contradiction
  · simp_all
  · simp_all
  · simp_all
  · simp_all

theorem directiveRest_returned {cs : List Char} (h : '\r' ∉ cs) :
    (directiveRest cs).Returned (directiveRest (withReturns cs)) := by
  fun_induction directiveRest cs with
  | case1 => exact .same [] []
  | case2 cs => exact .lineEnd [] cs
  | case3 cs ih =>
    have hrest : '\r' ∉ cs := by simpa using h
    exact (ih hrest).extend ['\\', '\n']
  | case4 cs ih => simp at h
  | case5 c cs hfeed hescape hreturn ih =>
    have hfeed : c ≠ '\n' := fun hc => hfeed hc
    rw [List.mem_cons, not_or] at h
    rw [withReturns_cons hfeed, directiveRest_cons hfeed]
    · exact (ih h.2).extend_self (by simpa using Ne.symm hfeed)
    · rintro ⟨rfl, hend⟩
      cases cs with
      | nil => simp at hend
      | cons d cs =>
        by_cases hd : d = '\n'
        · exact hescape cs rfl (by rw [hd])
        · rw [List.mem_cons, not_or] at h
          rw [withReturns_cons hd] at hend
          simp [hd, h.2.1] at hend

/-- A literal that does not go on behind a line feed. -/
theorem quotedRest_returned {quote : Char} (hquote : quote ≠ '\r') {cs : List Char}
    (h : '\n' ∉ (quotedRest quote cs).taken) :
    (quotedRest quote cs).Returned (quotedRest quote (withReturns cs)) := by
  fun_induction quotedRest quote cs with
  | case1 => exact .same [] []
  | case2 cs =>
    rw [withReturns_lineFeed, quotedRest_cons_plain (by decide) (by decide), if_neg (Ne.symm hquote)]
    exact .lineEnd [] cs
  | case3 => exact .same ['\\'] []
  | case4 c cs ih =>
    have htaken : '\n' ≠ c ∧ '\n' ∉ (quotedRest quote cs).taken := by simpa [Cut.extend] using h
    rw [withReturns_cons (by decide), withReturns_cons (Ne.symm htaken.1), quotedRest]
    exact (ih htaken.2).extend_self (by simpa using htaken.1)
  | case5 cs hfeed hlast hescape =>
    have hplain : quote ≠ '\\' := ne_backslash hlast hescape
    rw [withReturns_cons hfeed, quotedRest_cons_plain hfeed hplain, if_pos rfl]
    have hself : withReturns [quote] = [quote] := withReturns_cons hfeed []
    simpa only [hself] using Cut.Returned.same [quote] cs
  | case6 c cs hfeed hlast hescape hc ih =>
    have hplain : c ≠ '\\' := ne_backslash hlast hescape
    have htaken : '\n' ∉ (quotedRest quote cs).taken := by
      simp only [Cut.extend, List.singleton_append, List.mem_cons, not_or] at h
      exact h.2
    rw [withReturns_cons hfeed, quotedRest_cons_plain hfeed hplain, if_neg hc]
    exact (ih htaken).extend_self (by simpa using Ne.symm hfeed)

/-- Whether a delimiter of a raw string goes on up to the opening parenthesis, when its part `delimiter`
was read. -/
def opensRaw (delimiter : List Char) : List Char → Bool
  | [] => false
  | c :: cs => c = '(' || (extendsRawDelimiter delimiter c && opensRaw (delimiter ++ [c]) cs)

/-- A raw string, or an ordinary literal that does not go on behind a line feed. -/
theorem rawRest_returned {delimiter cs : List Char} (hfeed : '\n' ∉ delimiter)
    (hreturn : '\r' ∉ delimiter)
    (h : '\n' ∈ (rawRest delimiter cs).taken → opensRaw delimiter (rawRest delimiter cs).taken = true) :
    (rawRest delimiter cs).Returned (rawRest delimiter (withReturns cs)) := by
  fun_induction rawRest delimiter cs with
  | case1 => exact .same [] []
  | case2 delimiter cs =>
    have hclosing : '\n' ∉ delimiter ++ ['"'] ∧ '\r' ∉ delimiter ++ ['"'] := by simp [hfeed, hreturn]
    rw [withReturns_cons (by decide), rawRest, if_pos rfl,
      rawBodyRest_withReturns hclosing.1 hclosing.2]
    exact (Cut.Returned.same ..).extend_self (by decide)
  | case3 delimiter c cs hopen hextends ih =>
    have hblank : isBlank c = false := by
      simp only [extendsRawDelimiter, Bool.and_eq_true, Bool.not_eq_true'] at hextends
      exact hextends.1.1.2
    have hfeed' : c ≠ '\n' := by
      rintro rfl
      exact absurd hblank (by decide)
    have hreturn' : c ≠ '\r' := by
      rintro rfl
      exact absurd hblank (by decide)
    rw [withReturns_cons hfeed', rawRest, if_neg hopen, if_pos hextends]
    refine (ih (by simp [hfeed, Ne.symm hfeed']) (by simp [hreturn, Ne.symm hreturn']) ?_).extend_self
      (by simpa using Ne.symm hfeed')
    intro hmem
    have hraw := h (by simp [Cut.extend, hmem])
    simpa [Cut.extend, opensRaw, hopen, hextends] using hraw
  | case4 delimiter c cs hopen hends =>
    have hstart : rawRest delimiter (withReturns (c :: cs)) = quotedRest '"' (withReturns (c :: cs)) := by
      by_cases hc : c = '\n'
      · have hblank : extendsRawDelimiter delimiter '\r' = false := by
          have hreturn : isBlank '\r' = true := by decide
          simp [extendsRawDelimiter, hreturn]
        subst hc
        rw [withReturns_lineFeed, rawRest, if_neg (by decide), if_neg (by simp [hblank])]
      · rw [withReturns_cons hc, rawRest, if_neg hopen, if_neg hends]
    rw [hstart]
    refine quotedRest_returned (by decide) fun hmem => ?_
    have hraw := h hmem
    -- What was taken starts with the character that ends no delimiter.
    have hwhole : (quotedRest '"' (c :: cs)).taken ++ (quotedRest '"' (c :: cs)).rest = c :: cs :=
      whole_quotedRest ..
    cases htaken : (quotedRest '"' (c :: cs)).taken with
    | nil => simp [htaken] at hmem
    | cons d tail =>
      rw [htaken] at hwhole hraw
      obtain ⟨rfl, -⟩ := List.cons.inj hwhole
      simp [opensRaw, hopen, hends] at hraw

/-- Whether a text that starts with a word and a quote is a raw string. -/
def isRaw (text : List Char) : Bool :=
  Lexeme.rawPrefixes.contains (text.takeWhile (· ≠ '"')) && opensRaw [] (text.dropWhile (· ≠ '"')).tail

theorem isRaw_append {word : List Char} (hword : '"' ∉ word) (rest : List Char) :
    isRaw (word ++ '"' :: rest) = (Lexeme.rawPrefixes.contains word && opensRaw [] rest) := by
  have hall : ∀ c ∈ word, decide (c ≠ '"') = true := by
    rintro c hc
    simpa using ne_of_mem_of_not_mem hc hword
  rw [isRaw, List.takeWhile_append_of_pos hall, List.dropWhile_append_of_pos hall]
  simp

namespace Lexeme

/-- Whether a lexeme is a literal that goes on behind the end of a line, although it is no raw
string. -/
def joinsLines (lexeme : Lexeme) : Bool :=
  lexeme.text.contains '\n' &&
    match lexeme.shape with
    | .character => true
    | .string => !isRaw lexeme.text
    | _ => false

theorem isRaw_of_joinsLines {cut : Cut} (h : joinsLines ⟨.string, cut⟩ = false)
    (hmem : '\n' ∈ cut.taken) : isRaw cut.taken = true := by
  simpa [joinsLines, text, hmem] using h

theorem lineFeed_notMem_of_joinsLines {cut : Cut} (h : joinsLines ⟨.character, cut⟩ = false) :
    '\n' ∉ cut.taken := by
  simpa [joinsLines, text] using h

/-- Shapes that end with a line at the latest. -/
def lineShapes : List Shape := [.directive, .lineComment, .string, .character]

/-- How a lexeme stands in the text with returns. -/
inductive Returned : Lexeme → Lexeme → Prop
  | same (shape : Shape) (taken rest : List Char) :
      Returned ⟨shape, taken, rest⟩ ⟨shape, withReturns taken, withReturns rest⟩
  | lineEnd (shape : Shape) (hshape : shape ∈ lineShapes) (taken rest : List Char) :
      Returned ⟨shape, taken, '\n' :: rest⟩
        ⟨shape, withReturns taken ++ ['\r'], '\n' :: withReturns rest⟩

theorem Returned.of_cut {shape : Shape} (hshape : shape ∈ lineShapes) {cut cut' : Cut}
    (h : cut.Returned cut') : Returned ⟨shape, cut⟩ ⟨shape, cut'⟩ := by
  cases h with
  | same taken rest => exact .same ..
  | lineEnd taken rest => exact .lineEnd _ hshape ..

/-- A lexeme without line feeds. -/
theorem Returned.inline (shape : Shape) {taken : List Char} (htaken : '\n' ∉ taken)
    (rest : List Char) : Returned ⟨shape, taken, rest⟩ ⟨shape, taken, withReturns rest⟩ := by
  simpa only [withReturns_eq_self htaken] using Returned.same shape taken rest

/-- A quoted literal behind a prefix. -/
theorem quoted_returned {shape : Shape} (hshape : shape ∈ lineShapes) {quote : Char}
    (hquote : quote ≠ '\r') {start cs : List Char} (hstart : '\n' ∉ start)
    (h : '\n' ∉ ((quotedRest quote cs).extend start).taken) :
    Returned ⟨shape, (quotedRest quote cs).extend start⟩
      ⟨shape, (quotedRest quote (withReturns cs)).extend start⟩ := by
  have htaken : '\n' ∉ (quotedRest quote cs).taken := by
    simp only [Cut.extend, List.mem_append, not_or] at h
    exact h.2
  exact .of_cut hshape ((quotedRest_returned hquote htaken).extend_self hstart)

/-- A character that is no part of a word does not stand in one. -/
theorem notMem_word {c d : Char} (hc : isIdentStart c = true) (hd : isIdentStart d = false)
    (hd' : isIdentRest d = false) (cs : List Char) :
    d ∉ ((takeRun isIdentRest cs).extend [c]).taken := by
  intro hmem
  obtain rfl | hmem := List.mem_cons.1 hmem
  · simp [hd] at hc
  · simp [takeRun_taken_all isIdentRest cs d hmem] at hd'

theorem ofWord_returned {word : Cut} (hfeed : '\n' ∉ word.taken) (hquote : '"' ∉ word.taken)
    (h : (ofWord word).joinsLines = false) :
    Returned (ofWord word) (ofWord ⟨word.taken, withReturns word.rest⟩) := by
  obtain ⟨taken, rest⟩ := word
  by_cases hstring : rest.head? = some '"'
  · obtain ⟨cs, rfl⟩ := List.head?_eq_some_iff.1 hstring
    have hstart : '\n' ∉ taken ++ ['"'] := by simpa using hfeed
    rw [withReturns_cons (by decide)]
    simp only [ofWord] at h ⊢
    by_cases hraw : taken ∈ rawPrefixes
    · rw [if_pos hraw] at h
      rw [if_pos hraw, if_pos hraw]
      refine .of_cut (by decide) ((rawRest_returned (by simp) (by simp) fun hmem => ?_).extend_self hstart)
      have htaken := isRaw_of_joinsLines h (by simp [Cut.extend, hmem])
      simpa [Cut.extend, isRaw_append hquote, hraw] using htaken
    · rw [if_neg hraw] at h
      rw [if_neg hraw, if_neg hraw]
      by_cases hliteral : taken ∈ literalPrefixes
      · rw [if_pos hliteral] at h
        rw [if_pos hliteral, if_pos hliteral]
        refine quoted_returned (by decide) (by decide) hstart fun hmem => ?_
        have htaken := isRaw_of_joinsLines h hmem
        simp [Cut.extend, isRaw_append hquote, hraw] at htaken
      · rw [if_neg hliteral, if_neg hliteral]
        exact .inline _ hfeed _
  by_cases hcharacter : rest.head? = some '\''
  · obtain ⟨cs, rfl⟩ := List.head?_eq_some_iff.1 hcharacter
    have hstart : '\n' ∉ taken ++ ['\''] := by simpa using hfeed
    rw [withReturns_cons (by decide)]
    simp only [ofWord] at h ⊢
    by_cases hliteral : taken ∈ literalPrefixes
    · rw [if_pos hliteral] at h
      rw [if_pos hliteral, if_pos hliteral]
      exact quoted_returned (by decide) (by decide) hstart (lineFeed_notMem_of_joinsLines h)
    · rw [if_neg hliteral, if_neg hliteral]
      exact .inline _ hfeed _
  · rw [ofWord_plain hstring hcharacter, ofWord_plain]
    · exact .inline _ hfeed _
    · rwa [ne_eq, head?_withReturns (by decide) (by decide)]
    · rwa [ne_eq, head?_withReturns (by decide) (by decide)]

/-- How a lexeme starts does not depend on the returns, because no start looks for the end of a line. -/
theorem Start.of_withReturns (fresh : Bool) (c : Char) (cs : List Char) :
    Start.of fresh c (withReturns cs).head? = Start.of fresh c cs.head? := by
  cases cs with
  | nil => rfl
  | cons d cs =>
    by_cases hd : d = '\n'
    · subst hd
      have hdigit : '\r'.isDigit = false ∧ '\n'.isDigit = false := by decide
      simp [Start.of, hdigit]
    · rw [withReturns_cons hd]
      rfl

/-- The lexeme that starts with a character that is no blank stands in the text with returns as it does
in the text itself, unless it is a literal that joins lines. -/
theorem next_returned {fresh : Bool} {c : Char} {cs : List Char} (hblank : isBlank c = false)
    (hreturn : '\r' ∉ cs) (h : (next fresh c cs).joinsLines = false) :
    Returned (next fresh c cs) (next fresh c (withReturns cs)) := by
  have hfeed : c ≠ '\n' := by
    rintro rfl
    exact absurd hblank (by decide)
  have hone : '\n' ∉ [c] := by simpa using Ne.symm hfeed
  have hfits := Start.of_fits fresh c cs.head?
  rw [next_eq_read] at h
  rw [next_eq_read, next_eq_read, Start.of_withReturns]
  generalize Start.of fresh c cs.head? = start at hfits h
  cases start with
  | blank => exact absurd hfits (by simp [Start.Fits, hblank])
  | directive => exact .of_cut (by decide) ((directiveRest_returned hreturn).extend_self hone)
  | lineComment => exact .of_cut (by decide) ((lineCommentRest_returned cs).extend_self hone)
  | blockComment =>
    obtain ⟨rfl, hstar⟩ := hfits
    obtain ⟨tail, rfl⟩ := List.head?_eq_some_iff.1 hstar
    rw [withReturns_cons (by decide)]
    simp only [Start.read, List.tail_cons, List.take_succ_cons, List.take_zero,
      blockCommentRest_withReturns]
    exact .same ..
  | string =>
    obtain rfl : c = '"' := hfits
    refine quoted_returned (by decide) (by decide) hone fun hmem => ?_
    have hraw := isRaw_of_joinsLines h hmem
    simp [Cut.extend, isRaw, rawPrefixes] at hraw
  | character =>
    obtain rfl : c = '\'' := hfits
    exact quoted_returned (by decide) (by decide) hone (lineFeed_notMem_of_joinsLines h)
  | number =>
    simp only [Start.read, numberRest_withReturns]
    refine .inline _ ?_ _
    simpa using ⟨Ne.symm hfeed, lineFeed_notMem_numberRest c cs⟩
  | word =>
    rw [Start.read] at h
    rw [Start.read, Start.read, takeRun_withReturns (by decide) (by decide)]
    exact ofWord_returned (notMem_word hfits (by decide) (by decide) cs)
      (notMem_word hfits (by decide) (by decide) cs) h
  | pathSeparator =>
    obtain ⟨rfl, hcolon⟩ := hfits
    obtain ⟨tail, rfl⟩ := List.head?_eq_some_iff.1 hcolon
    rw [withReturns_cons (by decide)]
    exact .inline _ (by simp) _
  | punctuation => exact .inline _ hone _

end Lexeme

end EnumConverter.Source
