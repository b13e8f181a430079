import EnumConverter.Conversion
import EnumConverter.Text.Line
import EnumConverter.Text.CharClass

namespace EnumConverter.Annotation

open Text

/-- What is wrong with an override. -/
inductive OverrideProblem where
  /-- A conversion has a value already. -/
  | repeated (kind : Conversion) (ignored kept : String)
  /-- A literal has no closing quote. -/
  | unterminated (guess : Option Conversion) (literal : String)
  /-- The word behind a literal is no tag. -/
  | unknownTag (tag value : String)
  /-- Blanks stand between a literal and its tag. -/
  | detachedTag (kind : Conversion) (value : String)
  /-- A tag stands behind a quote that closes nothing. -/
  | unopened (kind : Conversion) (word : String)
  /-- A tag stands behind single quotes. -/
  | singleQuoted (kind : Conversion) (word : String)
  /-- A tag opens the text. -/
  | bareTag (kind : Conversion)
deriving DecidableEq, Repr

namespace OverrideProblem

/-- The conversion that the override was meant for, if that can be seen. -/
def kind? : OverrideProblem → Option Conversion
  | .repeated kind _ _ | .detachedTag kind _ | .unopened kind _ | .singleQuoted kind _
  | .bareTag kind => some kind
  | .unterminated guess _ => guess
  | .unknownTag _ _ => none

/-- The problem in words. -/
def message : OverrideProblem → String
  | .repeated kind ignored kept =>
    "second `" ++ kind.tag ++ "` override \"" ++ ignored ++ "\" ignored, keeping \"" ++ kept ++ "\""
  | .unterminated _ literal => "unterminated literal `" ++ literal ++ "`"
  | .unknownTag tag value => "unknown override tag `" ++ tag ++ "` on \"" ++ value ++ "\""
  | .detachedTag kind value =>
    "tag `" ++ kind.tag ++ "` is separated from \"" ++ value ++ "\" by whitespace"
  | .unopened kind word => "`" ++ word ++ "\"" ++ kind.tag ++ "` has no opening quote"
  | .singleQuoted _ word => "`" ++ word ++ "` is not a double-quoted literal"
  | .bareTag kind => "tag `" ++ kind.tag ++ "` has no literal"

end OverrideProblem

/-- The values that the comments behind an enumerator give it. -/
structure Overrides where
  string : Option String := none
  json : Option String := none
  /-- What is wrong with the text, in text order. -/
  problems : List OverrideProblem := []
deriving DecidableEq, Repr

/-- One thing that a text says about overrides. -/
inductive OverrideItem where
  /-- A tagged literal, unescaped. -/
  | value (kind : Conversion) (value : String)
  | problem (problem : OverrideProblem)
deriving DecidableEq, Repr

namespace Overrides

/-- The value for a conversion, if there is one. -/
def value? (set : Overrides) : Conversion → Option String
  | .string => set.string
  | .json => set.json

/-- The overrides with the value for a conversion set. -/
def setValue (set : Overrides) (value : String) : Conversion → Overrides
  | .string => { set with string := some value }
  | .json => { set with json := some value }

/-- The overrides with one more problem. -/
def addProblem (set : Overrides) (problem : OverrideProblem) : Overrides :=
  { set with problems := set.problems ++ [problem] }

/-- Takes one more item in. The first value for a conversion stays. -/
def add (set : Overrides) : OverrideItem → Overrides
  | .problem problem => set.addProblem problem
  | .value kind value =>
    match set.value? kind with
    | some kept => set.addProblem (.repeated kind value kept)
    | none => set.setValue value kind

/-- The overrides that a list of items gives. -/
def ofItems (items : List OverrideItem) : Overrides :=
  items.foldl add {}

end Overrides

/-- Whether a tag can hold a character. -/
def isTagChar (c : Char) : Bool :=
  c = '_' || isAlphanumeric c

/-- The conversion that the tag `cs` stands for. -/
def tagKind? (cs : List Char) : Option Conversion :=
  Conversion.ofTag? (String.ofList cs)

/-- Reads a literal behind its opening quote: its payload and what follows its closing quote. A
backslash before a quote or a backslash makes that character part of the payload. -/
def readLiteral : List Char → Option (List Char × List Char)
  | [] => none
  | '"' :: cs => some ([], cs)
  | '\\' :: '"' :: cs => (readLiteral cs).map fun (value, rest) => ('"' :: value, rest)
  | '\\' :: '\\' :: cs => (readLiteral cs).map fun (value, rest) => ('\\' :: value, rest)
  | c :: cs => (readLiteral cs).map fun (value, rest) => (c :: value, rest)

/-- The conversion that an unclosed literal may be meant for: the tag at its end. -/
def guessKind (literal : List Char) : Option Conversion := do
  let last ← (words literal).getLast?
  let tag := last.dropWhile fun c => c ≠ '"' && !isAlphanumeric c
  tagKind? (tag.reverse.takeWhile (· ≠ '"')).reverse

/-- What a piece of text says, if anything, and the text behind it. -/
abbrev ReadItem := Option OverrideItem × List Char

/-- Reads what follows a literal with the payload `value`: its tag, right behind the closing quote.
A tag behind blanks is reported. -/
def readTail (value : List Char) (cs : List Char) : ReadItem :=
  let tag := cs.takeWhile isTagChar
  if tag ≠ [] then
    let item := match tagKind? tag with
      | some kind => .value kind (String.ofList value)
      | none => .problem (.unknownTag (String.ofList tag) (String.ofList value))
    (some item, cs.dropWhile isTagChar)
  else
    let next := trimStart cs
    let rest := next.dropWhile isTagChar
    match tagKind? (next.takeWhile isTagChar) with
    | some kind =>
      if cs.head?.any isBlank && rest.head?.all isBlank then
        (some (.problem (.detachedTag kind (String.ofList value))), rest)
      else (none, cs)
    | none => (none, cs)

/-- Whether a word of free text ends before a character. -/
def endsFreeWord (c : Char) : Bool :=
  isBlank c || c = '"'

/-- The problem with a word of free text that ends in a tag behind a single quote, or is a tag and
opens the text. The ending `'s` is a possessive unless the word starts with a single quote too. -/
def looseTag? (word : List Char) (opensText : Bool) : Option OverrideProblem :=
  if '\'' ∈ word then do
    let tag := (word.reverse.takeWhile (· ≠ '\'')).reverse
    let payload := word.take (word.length - tag.length - 1)
    let kind ← tagKind? tag
    if payload.head? ≠ some '\'' && kind = .string then none
    else some (.singleQuoted kind (String.ofList word))
  else if opensText then (tagKind? word).map .bareTag
  else none

/-- Reads a word of free text. A quote right behind it opens a literal, unless a tag follows: then an
opening quote is missing. -/
def readWord (opensText : Bool) (cs : List Char) : ReadItem :=
  let word := cs.takeWhile (!endsFreeWord ·)
  match cs.dropWhile (!endsFreeWord ·) with
  | '"' :: rest =>
    match tagKind? (rest.takeWhile isTagChar) with
    | some kind =>
      (some (.problem (.unopened kind (String.ofList word))), rest.dropWhile isTagChar)
    | none => (none, '"' :: rest)
  | rest => ((looseTag? word opensText).map .problem, rest)

/-- Reads the next piece of a text that starts with `c`. -/
def readItem (opensText : Bool) (c : Char) (cs : List Char) : ReadItem :=
  if isBlank c then (none, cs)
  else if c = '"' then
    match readLiteral cs with
    | some (value, rest) => readTail value rest
    | none =>
      (some (.problem (.unterminated (guessKind (c :: cs)) (String.ofList (trimEnd (c :: cs))))), [])
  else readWord opensText (c :: cs)

theorem length_dropWhile_le (test : Char → Bool) (cs : List Char) :
    (cs.dropWhile test).length ≤ cs.length :=
  (List.dropWhile_sublist test).length_le

theorem length_readLiteral {cs value rest : List Char} (h : readLiteral cs = some (value, rest)) :
    rest.length < cs.length := by
  fun_induction readLiteral cs generalizing value rest with
  | case1 => simp at h
  | case2 cs => simp_all
  | case3 cs ih | case4 cs ih | case5 c cs _ _ _ ih =>
    obtain ⟨⟨v, r⟩, hv, hr⟩ := Option.map_eq_some_iff.1 h
    simp only [Prod.mk.injEq] at hr
    have hlt := ih hv
    simp only [List.length_cons]
    grind

theorem length_readTail (value cs : List Char) : (readTail value cs).2.length ≤ cs.length := by
  have htrim : (trimStart cs).length ≤ cs.length := length_dropWhile_le _ _
  unfold readTail
  dsimp only
  split
  · exact length_dropWhile_le _ _
  · split
    · split
      · exact Nat.le_trans (length_dropWhile_le _ _) htrim
      · exact Nat.le_refl _
    · exact Nat.le_refl _

theorem length_readItem (opensText : Bool) (c : Char) (cs : List Char) :
    (readItem opensText c cs).2.length < (c :: cs).length := by
  unfold readItem
  split
  · simp
  split
  · split
    · rename_i value rest h
      have htail := length_readTail value rest
      have hlit := length_readLiteral h
      simp only [List.length_cons]
      omega
    · simp
  · rename_i hblank hquote
    have hdrop : ((c :: cs).dropWhile (!endsFreeWord ·)).length ≤ cs.length := by
      simp [endsFreeWord, hblank, hquote]
      exact length_dropWhile_le _ _
    unfold readWord
    dsimp only
    split
    · rename_i rest hrest
      rw [hrest] at hdrop
      have htag := length_dropWhile_le isTagChar rest
      simp only [List.length_cons] at hdrop ⊢
      split <;> simp <;> omega
    · simp only [List.length_cons]
      omega

/-- What a text says about overrides, in text order. Only the first piece that is not blank opens the
text. -/
def readItems (opensText : Bool) : List Char → List OverrideItem
  | [] => []
  | c :: cs =>
    let read := readItem opensText c cs
    read.1.toList ++ readItems (opensText && isBlank c) read.2
termination_by cs => cs.length
decreasing_by exact length_readItem _ _ _

namespace Overrides

/-- The overrides in one line of text. -/
def ofText (text : String) : Overrides :=
  ofItems (readItems true text.toList)

/-- The overrides in the texts of all comments behind an enumerator. The texts are read as one, with
a space between each two, so that an override cannot straddle two comments. -/
def ofFragments (fragments : List String) : Overrides :=
  let texts := (fragments.map String.toList).filter (!isBlankText ·)
  ofText (String.ofList (join [' '] texts))

end Overrides

end EnumConverter.Annotation
