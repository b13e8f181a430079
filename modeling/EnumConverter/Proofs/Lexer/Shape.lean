import EnumConverter.Source.Token

namespace EnumConverter.Source

open Text

theorem takeRun_taken_all (test : Char → Bool) (cs : List Char) :
    ∀ c ∈ (takeRun test cs).taken, test c = true := by
  induction cs with
  | nil => simp [takeRun]
  | cons c cs ih =>
    by_cases hc : test c
    · simpa [takeRun, hc, Cut.extend] using ih
    · simp [takeRun, hc]

/-- A run ends at the end of the text or before a character that fails the test. -/
theorem takeRun_rest_head (test : Char → Bool) (cs : List Char) :
    ∀ c ∈ (takeRun test cs).rest.head?, test c = false := by
  induction cs with
  | nil => simp [takeRun]
  | cons c cs ih =>
    by_cases hc : test c
    · simpa [takeRun, hc, Cut.extend] using ih
    · simp [takeRun, hc]

theorem lineFeed_notMem_numberRest (previous : Char) (cs : List Char) :
    '\n' ∉ (numberRest previous cs).taken := by
  fun_induction numberRest previous cs with
  | case1 => simp
  | case2 previous c cs hpart ih =>
    have hc : c ≠ '\n' := by
      rintro rfl
      simp [isNumberPart] at hpart
    simpa [Cut.extend] using ⟨Ne.symm hc, ih⟩
  | case3 => simp

theorem blockCommentRest_cons {c : Char} {cs : List Char} (h : ¬ (c = '*' ∧ cs.head? = some '/')) :
    blockCommentRest (c :: cs) = (blockCommentRest cs).extend [c] := by
  rw [blockCommentRest.eq_def]
  split
  · contradiction
  · simp_all
  · simp_all

/-- A character of a block comment at which no closing delimiter stands. -/
theorem not_closes {c : Char} {cs : List Char} (h : ∀ tail, c = '*' → cs = '/' :: tail → False) :
    ¬ (c = '*' ∧ cs.head? = some '/') := by
  rintro ⟨hc, hhead⟩
  obtain ⟨tail, hcs⟩ := List.head?_eq_some_iff.1 hhead
  exact h tail hc hcs

/-- A character of a literal that neither takes the next one along nor stands last as a backslash. -/
theorem ne_backslash {c : Char} {cs : List Char} (hlast : c = '\\' → cs = [] → False)
    (hescape : ∀ d tail, c = '\\' → cs = d :: tail → False) : c ≠ '\\' := by
  intro hc
  cases cs with
  | nil => exact hlast hc rfl
  | cons d tail => exact hescape d tail hc rfl

theorem quotedRest_cons_plain {quote c : Char} (hfeed : c ≠ '\n') (hescape : c ≠ '\\') (cs : List Char) :
    quotedRest quote (c :: cs) =
      if c = quote then ⟨[c], cs⟩ else (quotedRest quote cs).extend [c] := by
  rw [quotedRest.eq_def]
  split <;> simp_all

namespace Lexeme

/-- The lexemes that can start with `c` when `cs` follows. -/
inductive Opening (fresh : Bool) (c : Char) (cs : List Char) : Lexeme → Prop
  | blank (hblank : isBlank c = true) : Opening fresh c cs ⟨.blank, [c], cs⟩
  | directive (hfresh : fresh = true) (hsign : c = '#') :
      Opening fresh c cs ⟨.directive, (directiveRest cs).extend ['#']⟩
  | lineComment (tail : List Char) (htext : c :: cs = '/' :: '/' :: tail) :
      Opening fresh c cs ⟨.lineComment, (lineCommentRest cs).extend ['/']⟩
  | blockComment (tail : List Char) (htext : c :: cs = '/' :: '*' :: tail) :
      Opening fresh c cs ⟨.blockComment, (blockCommentRest tail).extend ['/', '*']⟩
  | string (hquote : c = '"') : Opening fresh c cs ⟨.string, (quotedRest '"' cs).extend ['"']⟩
  | character (hquote : c = '\'') :
      Opening fresh c cs ⟨.character, (quotedRest '\'' cs).extend ['\'']⟩
  | number (hnumber : startsNumber c cs = true) :
      Opening fresh c cs ⟨.number, (numberRest c cs).extend [c]⟩
  | word (hstart : isIdentStart c = true) :
      Opening fresh c cs (ofWord ((takeRun isIdentRest cs).extend [c]))
  | pathSeparator (tail : List Char) (htext : c :: cs = ':' :: ':' :: tail) :
      Opening fresh c cs ⟨.pathSeparator, [':', ':'], tail⟩
  | punctuation : Opening fresh c cs ⟨.punctuation c, [c], cs⟩

/-- The next lexeme is one of those that can start here. -/
theorem opening_next (fresh : Bool) (c : Char) (cs : List Char) :
    Opening fresh c cs (next fresh c cs) := by
  have hfits := Start.of_fits fresh c cs.head?
  rw [next_eq_read]
  generalize Start.of fresh c cs.head? = start at hfits
  cases start with
  | blank => exact .blank hfits
  | directive =>
    obtain ⟨rfl, hfresh⟩ := hfits
    exact .directive hfresh rfl
  | lineComment =>
    obtain ⟨rfl, hbehind⟩ := hfits
    obtain ⟨tail, rfl⟩ := List.head?_eq_some_iff.1 hbehind
    exact .lineComment tail rfl
  | blockComment =>
    obtain ⟨rfl, hbehind⟩ := hfits
    obtain ⟨tail, rfl⟩ := List.head?_eq_some_iff.1 hbehind
    exact .blockComment tail rfl
  | string =>
    obtain rfl : c = '"' := hfits
    exact .string rfl
  | character =>
    obtain rfl : c = '\'' := hfits
    exact .character rfl
  | number => exact .number hfits
  | word => exact .word hfits
  | pathSeparator =>
    obtain ⟨rfl, hbehind⟩ := hfits
    obtain ⟨tail, rfl⟩ := List.head?_eq_some_iff.1 hbehind
    exact .pathSeparator tail rfl
  | punctuation => exact .punctuation

/-- A word that no quote follows is an identifier. -/
theorem ofWord_plain {word : Cut} (hstring : word.rest.head? ≠ some '"')
    (hcharacter : word.rest.head? ≠ some '\'') : ofWord word = ⟨.identifier, word⟩ := by
  unfold ofWord
  split <;> simp_all

/-- A lexeme that starts with a word is an identifier or a literal. -/
theorem shape_ofWord {word : Cut} {shape : Shape} (h : (ofWord word).shape = shape) :
    shape = .identifier ∨ shape = .string ∨ shape = .character := by
  subst h
  unfold ofWord
  repeat' split
  all_goals simp

/-- Text and rest of a lexeme make up what was read. -/
theorem text_append_rest (fresh : Bool) (c : Char) (cs : List Char) :
    (next fresh c cs).text ++ (next fresh c cs).rest = c :: cs :=
  whole_next fresh c cs

theorem text_ne_nil (fresh : Bool) (c : Char) (cs : List Char) : (next fresh c cs).text ≠ [] := by
  intro hnil
  have hhead := head?_text_next fresh c cs
  simp [hnil] at hhead

namespace Opening

variable {fresh : Bool} {c d : Char} {cs : List Char} {lexeme : Lexeme}

theorem of_blank (h : Opening fresh c cs lexeme) (hshape : lexeme.shape = .blank) :
    isBlank c = true ∧ lexeme.text = [c] := by
  cases h with
  | blank hblank => exact ⟨hblank, rfl⟩
  | word => simpa using shape_ofWord hshape
  | _ => simp at hshape

theorem of_directive (h : Opening fresh c cs lexeme) (hshape : lexeme.shape = .directive) :
    fresh = true ∧ c = '#' ∧ lexeme.cut = (directiveRest cs).extend ['#'] := by
  cases h with
  | directive hfresh hsign => exact ⟨hfresh, hsign, rfl⟩
  | word => simpa using shape_ofWord hshape
  | _ => simp at hshape

theorem of_punctuation (h : Opening fresh c cs lexeme) (hshape : lexeme.shape = .punctuation d) :
    lexeme.text = [d] := by
  cases h with
  | punctuation =>
    obtain rfl : c = d := by simpa using hshape
    rfl
  | word => simpa using shape_ofWord hshape
  | _ => simp at hshape

theorem of_pathSeparator (h : Opening fresh c cs lexeme) (hshape : lexeme.shape = .pathSeparator) :
    lexeme.text = [':', ':'] := by
  cases h with
  | pathSeparator => rfl
  | word => simpa using shape_ofWord hshape
  | _ => simp at hshape

theorem of_blockComment (h : Opening fresh c cs lexeme) (hshape : lexeme.shape = .blockComment) :
    ∃ tail, lexeme.text = '/' :: '*' :: tail := by
  cases h with
  | blockComment => exact ⟨_, rfl⟩
  | word => simpa using shape_ofWord hshape
  | _ => simp at hshape

/-- A line comment runs up to the next line feed or the end of the text. -/
theorem of_lineComment (h : Opening fresh c cs lexeme) (hshape : lexeme.shape = .lineComment) :
    (∃ tail, lexeme.text = '/' :: '/' :: tail) ∧ '\n' ∉ lexeme.text ∧
      (lexeme.rest = [] ∨ lexeme.rest.head? = some '\n') := by
  cases h with
  | lineComment tail htext =>
    obtain ⟨rfl, rfl⟩ := List.cons.inj htext
    have hall := takeRun_taken_all (· ≠ '\n') ('/' :: tail)
    have hhead := takeRun_rest_head (· ≠ '\n') ('/' :: tail)
    refine ⟨⟨(lineCommentRest tail).taken, rfl⟩, ?_, ?_⟩
    · intro hmem
      have hmem : '\n' ∈ (takeRun (· ≠ '\n') ('/' :: tail)).taken := by
        simpa [text, Cut.extend, lineCommentRest] using hmem
      simpa using hall '\n' hmem
    · change (lineCommentRest ('/' :: tail)).rest = [] ∨ (lineCommentRest ('/' :: tail)).rest.head? = _
      unfold lineCommentRest
      cases hrest : (takeRun (· ≠ '\n') ('/' :: tail)).rest with
      | nil => exact .inl rfl
      | cons e rest =>
        have he := hhead e (by rw [hrest]; rfl)
        exact .inr (by simpa using he)
  | word => simpa using shape_ofWord hshape
  | _ => simp at hshape

end Opening

end Lexeme

end EnumConverter.Source
