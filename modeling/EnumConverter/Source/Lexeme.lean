import EnumConverter.Text.CharClass

namespace EnumConverter.Source

open Text

/-- A text cut in two: what a reader takes from the front, and what it leaves. -/
structure Cut where
  taken : List Char
  rest : List Char
deriving DecidableEq, Repr

namespace Cut

/-- The text that was cut. -/
def whole (cut : Cut) : List Char :=
  cut.taken ++ cut.rest

/-- Takes `cs` as well, which stood before the text that was cut. -/
def extend (cs : List Char) (cut : Cut) : Cut :=
  ⟨cs ++ cut.taken, cut.rest⟩

@[simp] theorem whole_mk (taken rest : List Char) : whole ⟨taken, rest⟩ = taken ++ rest := rfl

@[simp] theorem whole_extend (cs : List Char) (cut : Cut) :
    (cut.extend cs).whole = cs ++ cut.whole := by
  simp [whole, extend]

end Cut

/-- Cuts before the first character that fails a test. -/
def takeRun (test : Char → Bool) : List Char → Cut
  | [] => ⟨[], []⟩
  | c :: cs => if test c then (takeRun test cs).extend [c] else ⟨[], c :: cs⟩

/-- The rest of a line comment: everything before the next line feed. -/
def lineCommentRest : List Char → Cut :=
  takeRun (· ≠ '\n')

/-- The rest of a preprocessor directive. It ends before a line feed, unless a backslash stands right
before that line feed or before its carriage return. -/
def directiveRest : List Char → Cut
  | [] => ⟨[], []⟩
  | '\n' :: cs => ⟨[], '\n' :: cs⟩
  | '\\' :: '\n' :: cs => (directiveRest cs).extend ['\\', '\n']
  | '\\' :: '\r' :: '\n' :: cs => (directiveRest cs).extend ['\\', '\r', '\n']
  | c :: cs => (directiveRest cs).extend [c]

/-- The rest of a block comment, its closing delimiter included. -/
def blockCommentRest : List Char → Cut
  | [] => ⟨[], []⟩
  | '*' :: '/' :: cs => ⟨['*', '/'], cs⟩
  | c :: cs => (blockCommentRest cs).extend [c]

/-- The rest of a quoted literal, its closing quote included. A backslash takes the next character
along, even a line feed; any other line feed ends an unclosed literal. -/
def quotedRest (quote : Char) : List Char → Cut
  | [] => ⟨[], []⟩
  | '\n' :: cs => ⟨[], '\n' :: cs⟩
  | ['\\'] => ⟨['\\'], []⟩
  | '\\' :: c :: cs => (quotedRest quote cs).extend ['\\', c]
  | c :: cs => if c = quote then ⟨[c], cs⟩ else (quotedRest quote cs).extend [c]

/-- Whether an ASCII letter or digit, a point, a digit separator or an underscore. -/
def isNumberPart (c : Char) : Bool :=
  c.isAlphanum || c = '.' || c = '\'' || c = '_'

/-- Whether a sign may follow this character inside a number. -/
def isExponentMark (c : Char) : Bool :=
  c = 'e' || c = 'E' || c = 'p' || c = 'P'

/-- The rest of a number after its character `previous`. -/
def numberRest (previous : Char) : List Char → Cut
  | [] => ⟨[], []⟩
  | c :: cs =>
    if isNumberPart c || ((c = '+' || c = '-') && isExponentMark previous) then
      (numberRest c cs).extend [c]
    else ⟨[], c :: cs⟩

/-- Whether an identifier can start with a character. -/
def isIdentStart (c : Char) : Bool :=
  c = '_' || isLetter c

/-- Whether an identifier can go on with a character. -/
def isIdentRest (c : Char) : Bool :=
  c = '_' || isAlphanumeric c

/-- Length of a text in UTF-8, by which the delimiter of a raw string is limited. -/
def utf8Length : List Char → Nat
  | [] => 0
  | c :: cs => c.utf8Size + utf8Length cs

/-- A raw string can have a delimiter of this many bytes. -/
def rawDelimiterLimit : Nat := 16

/-- Whether a character may extend the delimiter `delimiter` of a raw string. -/
def extendsRawDelimiter (delimiter : List Char) (c : Char) : Bool :=
  utf8Length delimiter < rawDelimiterLimit && !isBlank c && c ≠ ')' && c ≠ '\\'

/-- The rest of a raw string after its opening parenthesis, up to a closing parenthesis that
`closing` follows. -/
def rawBodyRest (closing : List Char) : List Char → Cut
  | [] => ⟨[], []⟩
  | c :: cs =>
    if c = ')' && closing.isPrefixOf cs then ⟨c :: closing, cs.drop closing.length⟩
    else (rawBodyRest closing cs).extend [c]

/-- The rest of a raw string after its opening quote and the part `delimiter` of its delimiter. Where
no delimiter can be read, what follows is an ordinary literal. -/
def rawRest (delimiter : List Char) : List Char → Cut
  | [] => ⟨[], []⟩
  | c :: cs =>
    if c = '(' then (rawBodyRest (delimiter ++ ['"']) cs).extend [c]
    else if extendsRawDelimiter delimiter c then (rawRest (delimiter ++ [c]) cs).extend [c]
    else quotedRest '"' (c :: cs)

/-- What a piece of source text is. -/
inductive Shape where
  /-- One blank character. -/
  | blank
  /-- A preprocessor directive with its continuation lines. -/
  | directive
  | lineComment
  | blockComment
  | identifier
  /-- The two colons between the parts of a qualified name. -/
  | pathSeparator
  /-- Any other single character. -/
  | punctuation (c : Char)
  | string
  | character
  | number
deriving DecidableEq, Repr

/-- The next piece of a source text, and what follows it. -/
structure Lexeme where
  shape : Shape
  cut : Cut
deriving DecidableEq, Repr

namespace Lexeme

/-- The characters of a lexeme. -/
def text (lexeme : Lexeme) : List Char :=
  lexeme.cut.taken

/-- What follows a lexeme. -/
def rest (lexeme : Lexeme) : List Char :=
  lexeme.cut.rest

/-- Words that make a raw string of the string literal right behind them. -/
def rawPrefixes : List (List Char) :=
  ["R".toList, "u8R".toList, "uR".toList, "UR".toList, "LR".toList]

/-- Words that belong to the literal right behind them. -/
def literalPrefixes : List (List Char) :=
  ["u8".toList, "u".toList, "U".toList, "L".toList]

/-- The lexeme that starts with a word: an identifier, or a literal with the word as its prefix. -/
def ofWord (word : Cut) : Lexeme :=
  match word.rest with
  | '"' :: cs =>
    if word.taken ∈ rawPrefixes then ⟨.string, (rawRest [] cs).extend (word.taken ++ ['"'])⟩
    else if word.taken ∈ literalPrefixes then
      ⟨.string, (quotedRest '"' cs).extend (word.taken ++ ['"'])⟩
    else ⟨.identifier, word⟩
  | '\'' :: cs =>
    if word.taken ∈ literalPrefixes then
      ⟨.character, (quotedRest '\'' cs).extend (word.taken ++ ['\''])⟩
    else ⟨.identifier, word⟩
  | _ => ⟨.identifier, word⟩

/-- Whether a number starts with `c` when `cs` follows. -/
def startsNumber (c : Char) (cs : List Char) : Bool :=
  c.isDigit || (c = '.' && cs.head?.any Char.isDigit)

/-- The lexeme that starts with the character `c` when `cs` follows. A number sign opens a directive
only where nothing but blanks precede it on its line, which `fresh` says. -/
def next (fresh : Bool) (c : Char) (cs : List Char) : Lexeme :=
  if isBlank c then ⟨.blank, [c], cs⟩
  else if c = '#' && fresh then ⟨.directive, (directiveRest cs).extend [c]⟩
  else if c = '/' && cs.head? = some '/' then ⟨.lineComment, (lineCommentRest cs).extend [c]⟩
  else if c = '/' && cs.head? = some '*' then
    ⟨.blockComment, (blockCommentRest cs.tail).extend (c :: cs.take 1)⟩
  else if c = '"' then ⟨.string, (quotedRest '"' cs).extend [c]⟩
  else if c = '\'' then ⟨.character, (quotedRest '\'' cs).extend [c]⟩
  else if startsNumber c cs then ⟨.number, (numberRest c cs).extend [c]⟩
  else if isIdentStart c then ofWord ((takeRun isIdentRest cs).extend [c])
  else if c = ':' && cs.head? = some ':' then ⟨.pathSeparator, c :: cs.take 1, cs.tail⟩
  else ⟨.punctuation c, [c], cs⟩

/-- How a lexeme starts, which its first two characters decide. -/
inductive Start where
  | blank
  | directive
  | lineComment
  | blockComment
  | string
  | character
  | number
  | word
  | pathSeparator
  | punctuation
deriving DecidableEq, Repr

namespace Start

/-- How the lexeme starts whose first character is `c` when `behind` stands right behind it. -/
def of (fresh : Bool) (c : Char) (behind : Option Char) : Start :=
  if isBlank c then .blank
  else if c = '#' && fresh then .directive
  else if c = '/' && behind = some '/' then .lineComment
  else if c = '/' && behind = some '*' then .blockComment
  else if c = '"' then .string
  else if c = '\'' then .character
  else if c.isDigit || (c = '.' && behind.any Char.isDigit) then .number
  else if isIdentStart c then .word
  else if c = ':' && behind = some ':' then .pathSeparator
  else .punctuation

/-- Reads a lexeme that starts in a given way. -/
def read (c : Char) (cs : List Char) : Start → Lexeme
  | .blank => ⟨.blank, [c], cs⟩
  | .directive => ⟨.directive, (directiveRest cs).extend [c]⟩
  | .lineComment => ⟨.lineComment, (lineCommentRest cs).extend [c]⟩
  | .blockComment => ⟨.blockComment, (blockCommentRest cs.tail).extend (c :: cs.take 1)⟩
  | .string => ⟨.string, (quotedRest '"' cs).extend [c]⟩
  | .character => ⟨.character, (quotedRest '\'' cs).extend [c]⟩
  | .number => ⟨.number, (numberRest c cs).extend [c]⟩
  | .word => ofWord ((takeRun isIdentRest cs).extend [c])
  | .pathSeparator => ⟨.pathSeparator, c :: cs.take 1, cs.tail⟩
  | .punctuation => ⟨.punctuation c, [c], cs⟩

/-- What the start of a lexeme says about its first two characters. -/
def Fits (fresh : Bool) (c : Char) (behind : Option Char) : Start → Prop
  | .blank => isBlank c = true
  | .directive => c = '#' ∧ fresh = true
  | .lineComment => c = '/' ∧ behind = some '/'
  | .blockComment => c = '/' ∧ behind = some '*'
  | .string => c = '"'
  | .character => c = '\''
  | .number => (c.isDigit || (c = '.' && behind.any Char.isDigit)) = true
  | .word => isIdentStart c = true
  | .pathSeparator => c = ':' ∧ behind = some ':'
  | .punctuation => True

theorem of_fits (fresh : Bool) (c : Char) (behind : Option Char) :
    (of fresh c behind).Fits fresh c behind := by
  unfold of
  repeat' split
  all_goals simp_all [Fits]

/-- Only a number sign can start in different ways on a fresh line and elsewhere. -/
theorem of_congr_fresh {c : Char} (hc : c ≠ '#') (fresh fresh' : Bool) (behind : Option Char) :
    of fresh c behind = of fresh' c behind := by
  simp [of, hc]

end Start

/-- Reading a lexeme first decides how it starts and then goes on to its end. -/
theorem next_eq_read (fresh : Bool) (c : Char) (cs : List Char) :
    next fresh c cs = (Start.of fresh c cs.head?).read c cs := by
  simp only [Start.of, apply_ite (Start.read c cs)]
  rfl

end Lexeme

@[simp] theorem whole_takeRun (test : Char → Bool) (cs : List Char) :
    (takeRun test cs).whole = cs := by
  induction cs with
  | nil => rfl
  | cons c cs ih => by_cases h : test c <;> simp [takeRun, h, ih]

@[simp] theorem whole_lineCommentRest (cs : List Char) : (lineCommentRest cs).whole = cs :=
  whole_takeRun _ cs

@[simp] theorem whole_directiveRest (cs : List Char) : (directiveRest cs).whole = cs := by
  fun_induction directiveRest cs <;> simp_all

@[simp] theorem whole_blockCommentRest (cs : List Char) : (blockCommentRest cs).whole = cs := by
  fun_induction blockCommentRest cs <;> simp_all

@[simp] theorem whole_quotedRest (quote : Char) (cs : List Char) :
    (quotedRest quote cs).whole = cs := by
  fun_induction quotedRest quote cs <;> simp_all

@[simp] theorem whole_numberRest (previous : Char) (cs : List Char) :
    (numberRest previous cs).whole = cs := by
  fun_induction numberRest previous cs <;> simp_all

@[simp] theorem whole_rawBodyRest (closing cs : List Char) :
    (rawBodyRest closing cs).whole = cs := by
  fun_induction rawBodyRest closing cs with
  | case1 => rfl
  | case2 c cs h =>
    obtain ⟨-, hclosing⟩ : c = ')' ∧ closing.isPrefixOf cs := by simpa using h
    obtain ⟨tail, rfl⟩ := List.isPrefixOf_iff_prefix.1 hclosing
    simp
  | case3 c cs _ ih => simp [ih]

@[simp] theorem whole_rawRest (delimiter cs : List Char) :
    (rawRest delimiter cs).whole = cs := by
  fun_induction rawRest delimiter cs <;> simp_all

namespace Lexeme

@[simp] theorem whole_ofWord (word : Cut) : (ofWord word).cut.whole = word.whole := by
  obtain ⟨taken, rest⟩ := word
  unfold ofWord
  split
  · rename_i h
    split
    · simp_all
    · split <;> simp_all
  · rename_i h
    split <;> simp_all
  · rfl

/-- A lexeme that starts with a word keeps that word in front. -/
theorem text_ofWord (word : Cut) : ∃ tail, (ofWord word).text = word.taken ++ tail := by
  unfold ofWord
  repeat' split
  all_goals simp [text, Cut.extend]

/-- A lexeme takes the character at hand and some of what follows it. -/
theorem cut_next (fresh : Bool) (c : Char) (cs : List Char) :
    ∃ tail, (next fresh c cs).cut.taken = c :: tail ∧ tail ++ (next fresh c cs).cut.rest = cs := by
  have hcons : cs.take 1 ++ cs.tail = cs := by cases cs <;> simp
  rw [next_eq_read]
  cases Start.of fresh c cs.head? with
  | blank | punctuation => exact ⟨[], rfl, rfl⟩
  | directive => exact ⟨_, rfl, whole_directiveRest cs⟩
  | lineComment => exact ⟨_, rfl, whole_lineCommentRest cs⟩
  | blockComment =>
    refine ⟨cs.take 1 ++ (blockCommentRest cs.tail).taken, rfl, ?_⟩
    rw [List.append_assoc]
    exact (congrArg (cs.take 1 ++ ·) (whole_blockCommentRest cs.tail)).trans hcons
  | string => exact ⟨_, rfl, whole_quotedRest '"' cs⟩
  | character => exact ⟨_, rfl, whole_quotedRest '\'' cs⟩
  | number => exact ⟨_, rfl, whole_numberRest c cs⟩
  | word =>
    obtain ⟨tail, htail⟩ := text_ofWord ((takeRun isIdentRest cs).extend [c])
    rw [text] at htail
    have hwhole := whole_ofWord ((takeRun isIdentRest cs).extend [c])
    rw [Cut.whole, htail, Cut.whole_extend, whole_takeRun] at hwhole
    exact ⟨_, htail, (List.cons_inj_right c).1 hwhole⟩
  | pathSeparator => exact ⟨_, rfl, hcons⟩

/-- A lexeme and what follows it make up the text that was read. -/
@[simp] theorem whole_next (fresh : Bool) (c : Char) (cs : List Char) :
    (next fresh c cs).cut.whole = c :: cs := by
  obtain ⟨tail, htaken, hrest⟩ := cut_next fresh c cs
  rw [Cut.whole, htaken, List.cons_append, hrest]

/-- A lexeme starts with the character at hand. -/
theorem head?_text_next (fresh : Bool) (c : Char) (cs : List Char) :
    (next fresh c cs).text.head? = some c := by
  obtain ⟨tail, htaken, -⟩ := cut_next fresh c cs
  rw [text, htaken, List.head?_cons]

/-- Reading a lexeme leaves less than there was. -/
theorem length_rest_next_lt (fresh : Bool) (c : Char) (cs : List Char) :
    (next fresh c cs).rest.length < (c :: cs).length := by
  have hhead := head?_text_next fresh c cs
  rw [← whole_next fresh c cs]
  unfold Cut.whole rest
  unfold text at hhead
  cases htaken : (next fresh c cs).cut.taken with
  | nil => simp [htaken] at hhead
  | cons => simp only [List.length_append, List.length_cons]; omega

end Lexeme

end EnumConverter.Source
