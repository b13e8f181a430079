import EnumConverter.Proofs.Lexer.Offset
import EnumConverter.Proofs.Spelling.Tokens

namespace EnumConverter.Source

open Text

/-- What can stand between two quotes: no quote, no line feed, and a backslash only together with the
character behind it. -/
inductive QuotedText (quote : Char) : List Char → Prop
  | nil : QuotedText quote []
  | plain {c : Char} {text : List Char} (hquote : c ≠ quote) (hescape : c ≠ '\\') (hfeed : c ≠ '\n')
      (htext : QuotedText quote text) : QuotedText quote (c :: text)
  | escaped (c : Char) {text : List Char} (htext : QuotedText quote text) :
      QuotedText quote ('\\' :: c :: text)

/-- What can stand between the quote and the parenthesis of a raw string. -/
structure RawDelimiter (delimiter : List Char) : Prop where
  bytes : (String.ofList delimiter).utf8ByteSize ≤ 16
  plain : ∀ c ∈ delimiter, isBlank c = false ∧ c ≠ '(' ∧ c ≠ ')' ∧ c ≠ '\\'

/-- What closes a raw string. -/
def rawClosing (delimiter : List Char) : List Char :=
  ')' :: (delimiter ++ ['"'])

/-- The texts that are one literal, and what kind of token each of them is. -/
inductive Literal : TokenKind → List Char → Prop
  | raw {start delimiter text : List Char}
      (hstart : start ∈ ["R".toList, "u8R".toList, "uR".toList, "UR".toList, "LR".toList])
      (hdelimiter : RawDelimiter delimiter) (htext : ¬ rawClosing delimiter <:+: text) :
      Literal .string (start ++ '"' :: (delimiter ++ '(' :: (text ++ rawClosing delimiter)))
  | string {start text : List Char}
      (hstart : start ∈ [[], "u8".toList, "u".toList, "U".toList, "L".toList])
      (htext : QuotedText '"' text) : Literal .string (start ++ '"' :: (text ++ ['"']))
  | character {start text : List Char}
      (hstart : start ∈ [[], "u8".toList, "u".toList, "U".toList, "L".toList])
      (htext : QuotedText '\'' text) : Literal .character (start ++ '\'' :: (text ++ ['\'']))

/-- A block comment with the given contents. -/
def blockCommentText (text : List Char) : List Char :=
  '/' :: '*' :: (text ++ ['*', '/'])

theorem not_infix_of_cons {delimiter text : List Char} {c : Char}
    (h : ¬ delimiter <:+: c :: text) : ¬ delimiter <:+: text :=
  fun hwithin => h (hwithin.trans (List.suffix_cons c text).isInfix)

/-- A delimiter does not stand across a character that it does not have. -/
theorem not_infix_append {delimiter first second : List Char} {c : Char} (hne : delimiter ≠ [])
    (hc : c ∉ delimiter) (hfirst : ¬ delimiter <:+: first) (hsecond : ¬ delimiter <:+: second) :
    ¬ delimiter <:+: first ++ c :: second := by
  rintro ⟨before, after, hsplit⟩
  rw [List.append_assoc, List.append_eq_append_iff] at hsplit
  obtain ⟨more, rfl, hmore⟩ | ⟨more, -, hmore⟩ := hsplit
  · -- The delimiter starts in the first part. It ends there as well, or it has the character.
    rw [List.append_eq_append_iff] at hmore
    obtain ⟨tail, rfl, -⟩ | ⟨tail, hdelimiter, htail⟩ := hmore
    · exact hfirst ⟨before, tail, by simp⟩
    · cases tail with
      | nil => exact hfirst ⟨before, [], by simp [hdelimiter]⟩
      | cons d tail =>
        obtain ⟨rfl, -⟩ := List.cons.inj htail
        exact hc (by simp [hdelimiter])
  · cases more with
    | nil =>
      obtain ⟨d, delimiter, rfl⟩ := List.exists_cons_of_ne_nil hne
      obtain ⟨rfl, -⟩ := List.cons.inj hmore
      exact hc (by simp)
    | cons d more =>
      obtain ⟨-, rfl⟩ := List.cons.inj hmore
      exact hsecond ⟨more, after, by simp⟩

theorem quotedRest_closed {quote : Char} (hquote : quote ≠ '\n' ∧ quote ≠ '\\') {text : List Char}
    (htext : QuotedText quote text) (rest : List Char) :
    quotedRest quote (text ++ quote :: rest) = ⟨text ++ [quote], rest⟩ := by
  induction htext with
  | nil =>
    rw [List.nil_append, quotedRest_cons_plain hquote.1 hquote.2, if_pos rfl]
    rfl
  | plain hc hescape hfeed _ ih =>
    rw [List.cons_append, quotedRest_cons_plain hfeed hescape, if_neg hc, ih]
    rfl
  | escaped c _ ih =>
    rw [List.cons_append, List.cons_append, quotedRest, ih]
    rfl

theorem blockCommentRest_closed {text : List Char} (htext : ¬ ['*', '/'] <:+: text)
    (rest : List Char) :
    blockCommentRest (text ++ '*' :: '/' :: rest) = ⟨text ++ ['*', '/'], rest⟩ := by
  induction text with
  | nil => rfl
  | cons c text ih =>
    have hopen : ¬ (c = '*' ∧ (text ++ '*' :: '/' :: rest).head? = some '/') := by
      rintro ⟨rfl, hhead⟩
      cases text with
      | nil => simp at hhead
      | cons d text =>
        obtain rfl : d = '/' := by simpa using hhead
        exact htext (List.IsPrefix.isInfix ⟨text, rfl⟩)
    rw [List.cons_append, blockCommentRest_cons hopen, ih (not_infix_of_cons htext)]
    rfl

/-- A closing delimiter that starts inside a text ends there as well, when it has no parenthesis and a
parenthesis follows the text. -/
theorem isPrefix_of_isPrefix_append {closing text rest : List Char} (hclosing : ')' ∉ closing)
    (h : closing <+: text ++ ')' :: rest) : closing <+: text := by
  obtain ⟨tail, htail⟩ := h
  obtain ⟨more, hmore, -⟩ | ⟨more, hmore, hrest⟩ := List.append_eq_append_iff.1 htail
  · exact ⟨more, hmore.symm⟩
  · cases more with
    | nil => simp [hmore]
    | cons c more =>
      obtain ⟨rfl, -⟩ := List.cons.inj hrest
      exact absurd (by simp [hmore]) hclosing

theorem rawBodyRest_closed {closing : List Char} (hclosing : ')' ∉ closing) {text : List Char}
    (htext : ¬ (')' :: closing) <:+: text) (rest : List Char) :
    rawBodyRest closing (text ++ ')' :: (closing ++ rest)) = ⟨text ++ ')' :: closing, rest⟩ := by
  induction text with
  | nil =>
    have hend : (')' = ')' && closing.isPrefixOf (closing ++ rest)) = true := by simp
    rw [List.nil_append, rawBodyRest, if_pos hend, List.drop_left]
    rfl
  | cons c text ih =>
    have hopen : ¬ (c = ')' && closing.isPrefixOf (text ++ ')' :: (closing ++ rest))) = true := by
      rw [Bool.and_eq_true, decide_eq_true_eq, List.isPrefixOf_iff_prefix]
      rintro ⟨rfl, hprefix⟩
      obtain ⟨tail, rfl⟩ := isPrefix_of_isPrefix_append hclosing hprefix
      exact htext (List.IsPrefix.isInfix ⟨tail, rfl⟩)
    rw [List.cons_append, rawBodyRest, if_neg hopen, ih (not_infix_of_cons htext)]
    rfl

theorem utf8Length_eq (text : List Char) : utf8Length text = (String.ofList text).utf8ByteSize := by
  induction text with
  | nil => rfl
  | cons c text ih =>
    have hcons : String.ofList (c :: text) = String.singleton c ++ String.ofList text := by
      rw [String.singleton_eq_ofList, ← String.ofList_append]
      rfl
    rw [utf8Length, ih, hcons, String.utf8ByteSize_append, String.utf8ByteSize_singleton]

theorem utf8Length_append (first second : List Char) :
    utf8Length (first ++ second) = utf8Length first + utf8Length second := by
  rw [utf8Length_eq, utf8Length_eq, utf8Length_eq, String.ofList_append, String.utf8ByteSize_append]

/-- Every character of a delimiter finds fewer bytes before it than a delimiter may have. -/
theorem RawDelimiter.extends {before after : List Char} {c : Char}
    (h : RawDelimiter (before ++ c :: after)) : extendsRawDelimiter before c = true := by
  obtain ⟨hblank, -, hclose, hescape⟩ := h.plain c (by simp)
  have hbytes := h.bytes
  rw [← utf8Length_eq, utf8Length_append, utf8Length] at hbytes
  have hsize := c.utf8Size_pos
  have hroom : utf8Length before < rawDelimiterLimit := by
    unfold rawDelimiterLimit
    omega
  simp [extendsRawDelimiter, hroom, hblank, hclose, hescape]

theorem rawRest_delimiter {delimiter : List Char} (h : RawDelimiter delimiter)
    {before after : List Char} (hsplit : before ++ after = delimiter) (rest : List Char) :
    rawRest before (after ++ '(' :: rest) =
      (rawBodyRest (delimiter ++ ['"']) rest).extend (after ++ ['(']) := by
  induction after generalizing before with
  | nil =>
    obtain rfl : before = delimiter := by simpa using hsplit
    rw [List.nil_append, rawRest, if_pos rfl]
    rfl
  | cons c after ih =>
    subst hsplit
    have hopen : c ≠ '(' := (h.plain c (by simp)).2.1
    rw [List.cons_append, rawRest, if_neg hopen, if_pos h.extends, ih (by simp)]
    rfl

theorem rawRest_closed {delimiter text : List Char} (h : RawDelimiter delimiter)
    (htext : ¬ rawClosing delimiter <:+: text) (rest : List Char) :
    rawRest [] (delimiter ++ '(' :: (text ++ rawClosing delimiter) ++ rest) =
      ⟨delimiter ++ '(' :: (text ++ rawClosing delimiter), rest⟩ := by
  have hclosing : ')' ∉ delimiter ++ ['"'] := by
    intro hmem
    rw [List.mem_append] at hmem
    obtain hmem | hmem := hmem
    · exact (h.plain ')' hmem).2.2.1 rfl
    · simp at hmem
  have hbody := rawBodyRest_closed hclosing htext rest
  rw [List.append_assoc, List.cons_append, rawRest_delimiter h (List.nil_append _)]
  simp only [rawClosing, List.append_assoc, List.cons_append] at hbody ⊢
  rw [hbody]
  simp [Cut.extend]

namespace Lexeme

/-- A word that ends before a quote is read together with the literal behind the quote. -/
theorem next_start (fresh : Bool) {c quote : Char} {cs : List Char}
    (hword : isIdentifier (c :: cs) = true) (hquote : isIdentRest quote = false) (rest : List Char) :
    next fresh c (cs ++ quote :: rest) = ofWord ⟨c :: cs, quote :: rest⟩ := by
  refine next_ofWord fresh hword fun d hd => ?_
  obtain rfl : quote = d := by simpa using hd
  exact hquote

theorem isIdentifier_start : ∀ start ∈ rawPrefixes ++ literalPrefixes, isIdentifier start = true := by
  decide

theorem notMem_rawPrefixes : ∀ start ∈ literalPrefixes, start ∉ rawPrefixes := by
  decide

theorem ofWord_raw {start : List Char} (hstart : start ∈ rawPrefixes) (cs : List Char) :
    ofWord ⟨start, '"' :: cs⟩ = ⟨.string, (rawRest [] cs).extend (start ++ ['"'])⟩ := by
  simp only [ofWord]
  rw [if_pos hstart]

theorem ofWord_string {start : List Char} (hstart : start ∈ literalPrefixes) (cs : List Char) :
    ofWord ⟨start, '"' :: cs⟩ = ⟨.string, (quotedRest '"' cs).extend (start ++ ['"'])⟩ := by
  simp only [ofWord]
  rw [if_neg (notMem_rawPrefixes start hstart), if_pos hstart]

theorem ofWord_character {start : List Char} (hstart : start ∈ literalPrefixes) (cs : List Char) :
    ofWord ⟨start, '\'' :: cs⟩ = ⟨.character, (quotedRest '\'' cs).extend (start ++ ['\''])⟩ := by
  simp only [ofWord]
  rw [if_pos hstart]

end Lexeme

namespace Cursor

variable (here : Cursor) {kind : TokenKind} {text : List Char}

theorem tokens_character {text rest : List Char}
    (hclosed : quotedRest '\'' (text ++ rest) = ⟨text, rest⟩) :
    here.tokens ('\'' :: (text ++ rest)) =
      ⟨.character, here.position⟩ :: (here.pastCode ('\'' :: text)).tokens rest := by
  have hnext : Lexeme.next here.fresh '\'' (text ++ rest) = ⟨.character, '\'' :: text, rest⟩ := by
    change Lexeme.mk .character ((quotedRest '\'' (text ++ rest)).extend ['\'']) = _
    rw [hclosed]
    rfl
  rw [tokens_cons, hnext]
  rfl

/-- A literal behind a word. -/
theorem tokens_start {start text more rest : List Char} {quote : Char} {shape : Shape}
    (hword : isIdentifier start = true) (hquote : isIdentRest quote = false)
    (hlexeme : Lexeme.ofWord ⟨start, quote :: more⟩ = ⟨shape, text, rest⟩)
    (hkind : shape = .string ∧ kind = .string ∨ shape = .character ∧ kind = .character) :
    here.tokens (start ++ quote :: more) =
      ⟨kind, here.position⟩ :: (here.pastCode text).tokens rest := by
  cases start with
  | nil => contradiction
  | cons c cs =>
    rw [List.cons_append, tokens_cons, Lexeme.next_start here.fresh hword hquote, hlexeme]
    obtain ⟨rfl, rfl⟩ | ⟨rfl, rfl⟩ := hkind
    · rfl
    · rfl

/-- Reading goes over a literal in one step, wherever it starts and whatever follows it. -/
theorem tokens_literal (h : Literal kind text) (rest : List Char) :
    here.tokens (text ++ rest) = ⟨kind, here.position⟩ :: (here.pastCode text).tokens rest := by
  cases h with
  | raw hstart hdelimiter htext =>
    have hword := Lexeme.isIdentifier_start _ (List.mem_append_left _ hstart)
    rw [List.append_assoc, List.cons_append]
    refine here.tokens_start hword (by decide) ?_ (.inl ⟨rfl, rfl⟩)
    rw [Lexeme.ofWord_raw hstart, rawRest_closed hdelimiter htext]
    simp [Cut.extend]
  | @string start text hstart htext =>
    have hclosed : quotedRest '"' (text ++ ['"'] ++ rest) = ⟨text ++ ['"'], rest⟩ := by
      simpa using quotedRest_closed (by decide) htext rest
    obtain rfl | hstart := List.mem_cons.1 hstart
    · exact here.tokens_string hclosed
    · have hword := Lexeme.isIdentifier_start _ (List.mem_append_right _ hstart)
      rw [List.append_assoc, List.cons_append]
      refine here.tokens_start hword (by decide) ?_ (.inl ⟨rfl, rfl⟩)
      rw [Lexeme.ofWord_string hstart, hclosed]
      simp [Cut.extend]
  | @character start text hstart htext =>
    have hclosed : quotedRest '\'' (text ++ ['\''] ++ rest) = ⟨text ++ ['\''], rest⟩ := by
      simpa using quotedRest_closed (by decide) htext rest
    obtain rfl | hstart := List.mem_cons.1 hstart
    · exact here.tokens_character hclosed
    · have hword := Lexeme.isIdentifier_start _ (List.mem_append_right _ hstart)
      rw [List.append_assoc, List.cons_append]
      refine here.tokens_start hword (by decide) ?_ (.inr ⟨rfl, rfl⟩)
      rw [Lexeme.ofWord_character hstart, hclosed]
      simp [Cut.extend]

/-- Reading goes over a block comment in one step, wherever it starts and whatever follows it. -/
theorem tokens_blockCommentText (htext : ¬ ['*', '/'] <:+: text) (rest : List Char) :
    here.tokens (blockCommentText text ++ rest) =
      here.blockComment (blockCommentText text) ::
        (here.pastComment (blockCommentText text)).tokens rest := by
  refine here.tokens_blockComment ?_
  simpa using blockCommentRest_closed htext rest

end Cursor

/-- The state behind a text that is one literal: code ends on the line on which the text ends. -/
def afterLiteral (text : List Char) : Cursor where
  position := positionAt text text.length
  fresh := false
  codeLine := lineAt text text.length

/-- The state behind a text that is one comment: there was no code yet. -/
def afterComment (text : List Char) : Cursor where
  position := positionAt text text.length
  fresh := false
  codeLine := 0

/-- The comment that a text is when nothing precedes it. -/
def leadingComment (text : List Char) : Comment where
  text := String.ofList text
  style := .block
  trailing := false
  endLine := lineAt text text.length

theorem start_after (text : List Char) : Position.start.after text = positionAt text text.length := by
  rw [← start_after_take, List.take_length]

theorem pastCode_start (text : List Char) : ({} : Cursor).pastCode text = afterLiteral text := by
  unfold Cursor.pastCode afterLiteral
  rw [start_after]
  rfl

theorem pastComment_start (text : List Char) : ({} : Cursor).pastComment text = afterComment text := by
  unfold Cursor.pastComment afterComment
  rw [start_after]

theorem blockComment_start (text : List Char) :
    ({} : Cursor).blockComment text = ⟨.comment (leadingComment text), .start⟩ := by
  unfold Cursor.blockComment Cursor.comment leadingComment
  rw [start_after]
  rfl

/-- A literal and a block comment at the start of a text are one token each, and what follows is read
as if it stood alone, with line and column counted over the literal or the comment. -/
theorem tokenize_delimited :
    (∀ kind text, Literal kind text → ∀ rest,
      tokenize (String.ofList (text ++ rest)) = ⟨kind, .start⟩ :: (afterLiteral text).tokens rest) ∧
    (∀ text, ¬ ['*', '/'] <:+: text → ∀ rest,
      tokenize (String.ofList (blockCommentText text ++ rest)) =
        ⟨.comment (leadingComment (blockCommentText text)), .start⟩ ::
          (afterComment (blockCommentText text)).tokens rest) := by
  constructor
  · intro kind text hliteral rest
    rw [tokenize, String.toList_ofList, Cursor.tokens_literal _ hliteral, pastCode_start]
  · intro text htext rest
    rw [tokenize, String.toList_ofList, Cursor.tokens_blockCommentText _ htext, blockComment_start,
      pastComment_start]

/-- A raw string, a literal and a comment that nearly end before they do. -/
theorem tokenize_delimited_near_miss :
    tokenize (String.ofList ("R".toList ++ '"' :: ("d".toList ++ '(' ::
        (")d \x7d\n/* )\"d".toList ++ rawClosing "d".toList)) ++ [';'])) =
      [⟨.string, ⟨1, 1⟩⟩, ⟨.punct ';', ⟨2, 10⟩⟩] ∧
    tokenize (String.ofList ("u8".toList ++ '"' :: ("\\\"\x7b".toList ++ ['"']) ++ [';'])) =
      [⟨.string, ⟨1, 1⟩⟩, ⟨.punct ';', ⟨1, 8⟩⟩] ∧
    tokenize (String.ofList (blockCommentText "* // \x7d\n/".toList ++ [';'])) =
      [⟨.comment ⟨"/** // \x7d\n/*/", .block, false, 2⟩, ⟨1, 1⟩⟩, ⟨.punct ';', ⟨2, 4⟩⟩] := by
  have hdelimiter : RawDelimiter "d".toList := by
    refine ⟨by decide, fun c hc => ?_⟩
    obtain rfl : c = 'd' := by simpa using hc
    decide
  have hquoted : QuotedText '"' "\\\"\x7b".toList :=
    .escaped '"' (.plain (by decide) (by decide) (by decide) .nil)
  refine ⟨?_, ?_, ?_⟩
  · rw [tokenize_delimited.1 _ _ (.raw (by decide) hdelimiter (by decide +kernel)),
      Cursor.tokens_mark _ (by decide), Cursor.tokens_nil]
    decide +kernel
  · rw [tokenize_delimited.1 _ _ (.string (by decide) hquoted), Cursor.tokens_mark _ (by decide),
      Cursor.tokens_nil]
    decide +kernel
  · rw [tokenize_delimited.2 _ (by decide +kernel), Cursor.tokens_mark _ (by decide), Cursor.tokens_nil]
    decide +kernel

end EnumConverter.Source
