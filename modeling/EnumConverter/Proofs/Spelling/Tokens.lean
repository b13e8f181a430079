import EnumConverter.Proofs.Spelling.Word

namespace EnumConverter.Source

open Text

namespace Position

theorem line_after (here : Position) (text : List Char) :
    (here.after text).line = here.line + text.count '\n' := by
  induction text generalizing here with
  | nil => rfl
  | cons c text ih =>
    rw [after_cons, ih, List.count_cons]
    by_cases hc : c = '\n'
    · simp [advance, hc]
      omega
    · simp [advance, hc]

theorem line_after_of_notMem (here : Position) {text : List Char} (h : '\n' ∉ text) :
    (here.after text).line = here.line := by
  rw [line_after, List.count_eq_zero.2 h, Nat.add_zero]

end Position

namespace Lexeme

/-- Characters that are a token on their own, whatever follows them. -/
def marks : List Char :=
  ['(', ')', '[', ']', '\x7b', '\x7d', '<', '>', '&', ',', ';', '=', '+']

theorem next_mark (fresh : Bool) {c : Char} (hmark : c ∈ marks) (rest : List Char) :
    next fresh c rest = ⟨.punctuation c, [c], rest⟩ := by
  simp only [marks, List.mem_cons, List.not_mem_nil, or_false] at hmark
  rcases hmark with rfl | rfl | rfl | rfl | rfl | rfl | rfl | rfl | rfl | rfl | rfl | rfl | rfl <;>
    rfl

end Lexeme

namespace Cursor

/-- The cursor behind a blank. -/
def pastBlank (here : Cursor) (c : Char) : Cursor :=
  { here with position := here.position.advance c, fresh := here.fresh || c = '\n' }

/-- The cursor behind a text that ends with code. -/
def pastCode (here : Cursor) (text : List Char) : Cursor where
  position := here.position.after text
  fresh := false
  codeLine := (here.position.after text).line

/-- The cursor behind a comment. -/
def pastComment (here : Cursor) (text : List Char) : Cursor :=
  { here with position := here.position.after text, fresh := false }

@[simp] theorem position_pastCode (here : Cursor) (text : List Char) :
    (here.pastCode text).position = here.position.after text := rfl

@[simp] theorem position_pastComment (here : Cursor) (text : List Char) :
    (here.pastComment text).position = here.position.after text := rfl

@[simp] theorem pastCode_pastCode (here : Cursor) (first second : List Char) :
    (here.pastCode first).pastCode second = here.pastCode (first ++ second) := by
  simp [pastCode, Position.after_append]

@[simp] theorem pastBlank_pastCode (here : Cursor) (c : Char) (text : List Char) :
    (here.pastBlank c).pastCode text = here.pastCode (c :: text) := rfl

variable (here : Cursor) {c : Char} {text word rest : List Char}

theorem tokens_blank (hblank : isBlank c = true) (rest : List Char) :
    here.tokens (c :: rest) = (here.pastBlank c).tokens rest := by
  have hnext : Lexeme.next here.fresh c rest = ⟨.blank, [c], rest⟩ := by simp [Lexeme.next, hblank]
  rw [tokens_cons, hnext]
  simp [token?, kind?, past, pastBlank, Lexeme.text, Lexeme.rest]

theorem tokens_word (hword : isIdentifier word = true) (hstop : StopsWord rest) :
    here.tokens (word ++ rest) =
      ⟨.ident (String.ofList word), here.position⟩ :: (here.pastCode word).tokens rest := by
  cases word with
  | nil => simp [isIdentifier] at hword
  | cons c cs =>
    rw [List.cons_append, tokens_cons, Lexeme.next_word here.fresh hword hstop]
    rfl

theorem tokens_mark (hmark : c ∈ Lexeme.marks) (rest : List Char) :
    here.tokens (c :: rest) = ⟨.punct c, here.position⟩ :: (here.pastCode [c]).tokens rest := by
  rw [tokens_cons, Lexeme.next_mark here.fresh hmark]
  rfl

/-- A point is a token on its own unless a digit follows. -/
theorem tokens_point (hrest : rest.head?.any Char.isDigit = false) :
    here.tokens ('.' :: rest) = ⟨.punct '.', here.position⟩ :: (here.pastCode ['.']).tokens rest := by
  have hnumber : Lexeme.startsNumber '.' rest = false := by simpa [Lexeme.startsNumber] using hrest
  have hnext : Lexeme.next here.fresh '.' rest = ⟨.punctuation '.', ['.'], rest⟩ := by
    unfold Lexeme.next
    rw [hnumber]
    rfl
  rw [tokens_cons, hnext]
  rfl

theorem tokens_pathSeparator (rest : List Char) :
    here.tokens (':' :: ':' :: rest) =
      ⟨.pathSeparator, here.position⟩ :: (here.pastCode [':', ':']).tokens rest := by
  rw [tokens_cons]
  rfl

theorem tokens_string (hclosed : quotedRest '"' (text ++ rest) = ⟨text, rest⟩) :
    here.tokens ('"' :: (text ++ rest)) =
      ⟨.string, here.position⟩ :: (here.pastCode ('"' :: text)).tokens rest := by
  have hnext : Lexeme.next here.fresh '"' (text ++ rest) = ⟨.string, '"' :: text, rest⟩ := by
    change Lexeme.mk .string ((quotedRest '"' (text ++ rest)).extend ['"']) = _
    rw [hclosed]
    rfl
  rw [tokens_cons, hnext]
  rfl

theorem lineCommentRest_append (htext : '\n' ∉ text)
    (hrest : rest = [] ∨ rest.head? = some '\n') :
    lineCommentRest (text ++ rest) = ⟨text, rest⟩ := by
  refine takeRun_append_of_all ?_ ?_
  · intro c hc
    have : c ≠ '\n' := by
      rintro rfl
      exact htext hc
    simpa using this
  · intro c hc
    obtain rfl | hfeed := hrest
    · simp at hc
    · obtain rfl : '\n' = c := by simpa [hfeed] using hc
      rfl

/-- The comment of one line that starts here. -/
def lineComment (text : List Char) : Token :=
  ⟨.comment (here.comment .line (trimEnd text) here.position.line), here.position⟩

theorem tokens_lineComment (htext : '\n' ∉ text) (hrest : rest = [] ∨ rest.head? = some '\n') :
    here.tokens ('/' :: '/' :: text ++ rest) =
      here.lineComment ('/' :: '/' :: text) :: (here.pastComment ('/' :: '/' :: text)).tokens rest := by
  have hnext : Lexeme.next here.fresh '/' ('/' :: text ++ rest) =
      ⟨.lineComment, '/' :: '/' :: text, rest⟩ := by
    change Lexeme.mk .lineComment ((lineCommentRest ('/' :: text ++ rest)).extend ['/']) = _
    rw [lineCommentRest_append (by simpa using htext) hrest]
    rfl
  change here.tokens ('/' :: ('/' :: text ++ rest)) = _
  rw [tokens_cons, hnext]
  rfl

/-- The block comment that starts here. -/
def blockComment (text : List Char) : Token :=
  ⟨.comment (here.comment .block text (here.position.after text).line), here.position⟩

theorem tokens_blockComment (hclosed : blockCommentRest (text ++ rest) = ⟨text, rest⟩) :
    here.tokens ('/' :: '*' :: text ++ rest) =
      here.blockComment ('/' :: '*' :: text) ::
        (here.pastComment ('/' :: '*' :: text)).tokens rest := by
  have hnext : Lexeme.next here.fresh '/' ('*' :: text ++ rest) =
      ⟨.blockComment, '/' :: '*' :: text, rest⟩ := by
    change Lexeme.mk .blockComment ((blockCommentRest (text ++ rest)).extend ['/', '*']) = _
    rw [hclosed]
    rfl
  change here.tokens ('/' :: ('*' :: text ++ rest)) = _
  rw [tokens_cons, hnext]
  rfl

end Cursor

end EnumConverter.Source
