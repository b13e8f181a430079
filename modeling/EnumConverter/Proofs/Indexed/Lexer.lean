import EnumConverter.Proofs.Indexed.Checked
import EnumConverter.Proofs.LineEnd.Lexeme
import EnumConverter.Proofs.Spelling.Word

namespace EnumConverter.Source

open Text

section Stops

variable (chars : List Char)

/-- Where a loop that ends with the text ends. -/
def textEnd {σ : Type} (_ : σ) (index : Nat) : Checked Nat :=
  .ok index

/-- Where a run of characters that pass a test ends. -/
def runStop (test : Char → Bool) : Nat → Checked Nat :=
  loop chars textEnd (fun _ index c =>
    .ok (if test c then .next () (index + 1) else .done index)) ()

/-- Where a directive ends. -/
def directiveStop : Nat → Checked Nat :=
  loop chars textEnd (fun _ index c =>
    .ok (if c = '\n' then .done index
      else if c = '\\' && chars[index + 1]? = some '\n' then .next () (index + 2)
      else if c = '\\' && chars[index + 1]? = some '\r' && chars[index + 2]? = some '\n' then
        .next () (index + 3)
      else .next () (index + 1))) ()

/-- Where a block comment ends whose opening delimiter was read. -/
def blockCommentStop : Nat → Checked Nat :=
  loop chars textEnd (fun _ index c =>
    .ok (if c = '*' && chars[index + 1]? = some '/' then .done (index + 2)
      else .next () (index + 1))) ()

/-- Where a quoted literal ends whose opening quote was read. A backslash at the end of the text takes
nothing along. -/
def quotedStop (quote : Char) : Nat → Checked Nat :=
  loop chars textEnd (fun _ index c =>
    .ok (if c = '\n' then .done index
      else if c = '\\' then .next () (if chars[index + 1]?.isSome then index + 2 else index + 1)
      else if c = quote then .done (index + 1)
      else .next () (index + 1))) ()

/-- Where a number ends whose last character so far is `previous`. -/
def numberStop (previous : Char) : Nat → Checked Nat :=
  loop chars textEnd (fun previous index c =>
    .ok (if isNumberPart c || ((c = '+' || c = '-') && isExponentMark previous) then
        .next c (index + 1)
      else .done index)) previous

/-- Where a raw string ends whose opening parenthesis was read. Behind a closing parenthesis the rest of
the text is compared with the closing delimiter. -/
def rawBodyStop (closing : List Char) : Nat → Checked Nat :=
  loop chars textEnd (fun _ index c =>
    if c = ')' then do
      let behind ← Checked.slice chars (index + 1) chars.length
      if closing.isPrefixOf behind then .ok (.done (index + 1 + closing.length))
      else .ok (.next () (index + 1))
    else .ok (.next () (index + 1))) ()

/-- Where a raw string ends whose delimiter was read up to `delimiter`. -/
def rawStop (delimiter : List Char) : Nat → Checked Nat :=
  loop chars textEnd (fun delimiter index c =>
    if c = '(' then do
      let stop ← rawBodyStop chars (delimiter ++ ['"']) (index + 1)
      .ok (.done stop)
    else if extendsRawDelimiter delimiter c then .ok (.next (delimiter ++ [c]) (index + 1))
    else do
      let stop ← quotedStop chars '"' index
      .ok (.done stop)) delimiter

end Stops

section Laws

variable {chars cs : List Char}

theorem runStop_offset (test : Char → Bool) (h : cs <:+ chars) :
    runStop chars test (offset chars cs) = .ok (offset chars (takeRun test cs).rest) := by
  fun_induction takeRun test cs with
  | case1 => exact loop_nil
  | case2 c cs htest ih =>
    have hcs := (List.suffix_cons c cs).trans h
    exact (loop_next h List.suffix_rfl (by simp [htest, offset_cons h])).trans (ih hcs)
  | case3 c cs htest => exact loop_done h (by simp [htest])

theorem numberStop_offset (previous : Char) (h : cs <:+ chars) :
    numberStop chars previous (offset chars cs) = .ok (offset chars (numberRest previous cs).rest) := by
  fun_induction numberRest previous cs with
  | case1 => exact loop_nil
  | case2 previous c cs hpart ih =>
    have hcs := (List.suffix_cons c cs).trans h
    exact (loop_next h List.suffix_rfl (by simp [hpart, offset_cons h])).trans (ih hcs)
  | case3 previous c cs hpart => exact loop_done h (by simp [hpart])

theorem blockCommentStop_offset (h : cs <:+ chars) :
    blockCommentStop chars (offset chars cs) = .ok (offset chars (blockCommentRest cs).rest) := by
  fun_induction blockCommentRest cs with
  | case1 => exact loop_nil
  | case2 cs =>
    have hstop : offset chars cs = offset chars ('*' :: '/' :: cs) + 2 :=
      offset_append (show ['*', '/'] ++ cs <:+ chars from h)
    exact loop_done h (by simp [peek_offset h, hstop])
  | case3 c cs hopen ih =>
    have hclosed : ¬ (c = '*' ∧ cs.head? = some '/') := not_closes hopen
    have hcs := (List.suffix_cons c cs).trans h
    refine (loop_next h List.suffix_rfl ?_).trans (ih hcs)
    rw [peek_offset h, if_neg (by simpa using hclosed), offset_cons h]

theorem directiveStop_offset (h : cs <:+ chars) :
    directiveStop chars (offset chars cs) = .ok (offset chars (directiveRest cs).rest) := by
  fun_induction directiveRest cs with
  | case1 => exact loop_nil
  | case2 cs => exact loop_done h (by simp)
  | case3 cs ih =>
    have hstop : offset chars cs = offset chars ('\\' :: '\n' :: cs) + 2 :=
      offset_append (show ['\\', '\n'] ++ cs <:+ chars from h)
    have hrest : cs <:+ '\n' :: cs := List.suffix_cons ..
    refine (loop_next h hrest ?_).trans (ih (hrest.trans ((List.suffix_cons ..).trans h)))
    simp [peek_offset h, hstop]
  | case4 cs ih =>
    have hstop : offset chars cs = offset chars ('\\' :: '\r' :: '\n' :: cs) + 3 :=
      offset_append (show ['\\', '\r', '\n'] ++ cs <:+ chars from h)
    have hrest : cs <:+ '\r' :: '\n' :: cs := ⟨['\r', '\n'], rfl⟩
    have hbehind : chars[offset chars ('\\' :: '\r' :: '\n' :: cs) + 2]? = some '\n' :=
      peek_append (show ['\\', '\r'] ++ '\n' :: cs <:+ chars from h)
    refine (loop_next h hrest ?_).trans (ih (hrest.trans ((List.suffix_cons ..).trans h)))
    simp [peek_offset h, hstop, hbehind]
  | case5 c cs hfeed hescape hreturn ih =>
    have hcs := (List.suffix_cons c cs).trans h
    have hfeed : c ≠ '\n' := hfeed
    have hone : ¬ (c = '\\' ∧ cs.head? = some '\n') := by
      rintro ⟨rfl, hhead⟩
      obtain ⟨tail, rfl⟩ := List.head?_eq_some_iff.1 hhead
      exact hescape tail rfl rfl
    have htwo : ¬ (c = '\\' ∧ cs.head? = some '\r' ∧
        chars[offset chars (c :: cs) + 2]? = some '\n') := by
      rintro ⟨rfl, hhead, hbehind⟩
      obtain ⟨tail, rfl⟩ := List.head?_eq_some_iff.1 hhead
      have hpeek : chars[offset chars ('\\' :: '\r' :: tail) + 2]? = tail.head? :=
        peek_append (show ['\\', '\r'] ++ tail <:+ chars from h)
      obtain ⟨tail, rfl⟩ := List.head?_eq_some_iff.1 (hpeek.symm.trans hbehind)
      exact hreturn tail rfl rfl
    refine (loop_next h List.suffix_rfl ?_).trans (ih hcs)
    rw [peek_offset h, if_neg hfeed, if_neg (by simpa using hone), if_neg (by simpa [and_assoc] using htwo),
      offset_cons h]

theorem quotedStop_offset (quote : Char) (h : cs <:+ chars) :
    quotedStop chars quote (offset chars cs) = .ok (offset chars (quotedRest quote cs).rest) := by
  fun_induction quotedRest quote cs with
  | case1 => exact loop_nil
  | case2 cs => exact loop_done h (by simp)
  | case3 =>
    have hnext : quotedStop chars quote (offset chars ['\\']) = quotedStop chars quote (offset chars []) :=
      loop_next h List.suffix_rfl (by simp [peek_offset h, ← offset_cons h])
    rw [hnext]
    exact loop_nil
  | case4 c cs ih =>
    have hstop : offset chars cs = offset chars ('\\' :: c :: cs) + 2 :=
      offset_append (show ['\\', c] ++ cs <:+ chars from h)
    have hrest : cs <:+ c :: cs := List.suffix_cons ..
    refine (loop_next h hrest ?_).trans (ih (hrest.trans ((List.suffix_cons ..).trans h)))
    simp [peek_offset h, hstop]
  | case5 cs hfeed hlast hescape =>
    have hplain : quote ≠ '\\' := ne_backslash hlast hescape
    refine loop_done h ?_
    rw [if_neg hfeed, if_neg hplain, if_pos rfl, offset_cons h]
  | case6 c cs hfeed hlast hescape hc ih =>
    have hplain : c ≠ '\\' := ne_backslash hlast hescape
    refine (loop_next h List.suffix_rfl ?_).trans (ih ((List.suffix_cons c cs).trans h))
    rw [if_neg hfeed, if_neg hplain, if_neg hc, offset_cons h]

theorem rawBodyStop_offset (closing : List Char) (h : cs <:+ chars) :
    rawBodyStop chars closing (offset chars cs) = .ok (offset chars (rawBodyRest closing cs).rest) := by
  fun_induction rawBodyRest closing cs with
  | case1 => exact loop_nil
  | case2 c cs hclosing =>
    obtain ⟨rfl, hend⟩ : c = ')' ∧ closing.isPrefixOf cs = true := by simpa using hclosing
    obtain ⟨tail, rfl⟩ := List.isPrefixOf_iff_prefix.1 hend
    have hstop : offset chars tail = offset chars (')' :: (closing ++ tail)) + 1 + closing.length := by
      rw [offset_cons h, offset_append ((List.suffix_cons ..).trans h)]
    refine loop_done h ?_
    rw [if_pos rfl, slice_behind h, Checked.ok_bind, if_pos hend, List.drop_left, hstop]
  | case3 c cs hopen ih =>
    refine (loop_next h List.suffix_rfl ?_).trans (ih ((List.suffix_cons c cs).trans h))
    by_cases hc : c = ')'
    · have hend : ¬ closing.isPrefixOf cs := fun hend => hopen (by simp [hc, hend])
      rw [if_pos hc, slice_behind h, Checked.ok_bind, if_neg hend, offset_cons h]
    · rw [if_neg hc, offset_cons h]

theorem rawStop_offset (delimiter : List Char) (h : cs <:+ chars) :
    rawStop chars delimiter (offset chars cs) = .ok (offset chars (rawRest delimiter cs).rest) := by
  fun_induction rawRest delimiter cs with
  | case1 => exact loop_nil
  | case2 delimiter cs =>
    refine loop_done h ?_
    rw [if_pos rfl, offset_cons h, rawBodyStop_offset _ ((List.suffix_cons ..).trans h)]
    rfl
  | case3 delimiter c cs hopen hextends ih =>
    refine (loop_next h List.suffix_rfl ?_).trans (ih ((List.suffix_cons c cs).trans h))
    rw [if_neg hopen, if_pos hextends, offset_cons h]
  | case4 delimiter c cs hopen hends =>
    refine loop_done h ?_
    rw [if_neg hopen, if_neg hends, quotedStop_offset '"' h]
    rfl

end Laws

section Lexemes

variable (chars : List Char)

/-- The shape of the lexeme that starts with the word at an index, and where it ends. -/
def wordAt (index : Nat) : Checked (Shape × Nat) := do
  let stop ← runStop chars isIdentRest index
  let word ← Checked.slice chars index stop
  if chars[stop]? = some '"' && Lexeme.rawPrefixes.contains word then
    Prod.mk .string <$> rawStop chars [] (stop + 1)
  else if chars[stop]? = some '"' && Lexeme.literalPrefixes.contains word then
    Prod.mk .string <$> quotedStop chars '"' (stop + 1)
  else if chars[stop]? = some '\'' && Lexeme.literalPrefixes.contains word then
    Prod.mk .character <$> quotedStop chars '\'' (stop + 1)
  else .ok (.identifier, stop)

/-- The shape of the lexeme at an index at which `c` stands, and where it ends. -/
def lexemeAt (fresh : Bool) (index : Nat) (c : Char) : Checked (Shape × Nat) :=
  if isBlank c then .ok (.blank, index + 1)
  else if c = '#' && fresh then Prod.mk .directive <$> directiveStop chars index
  else if c = '/' && chars[index + 1]? = some '/' then
    Prod.mk .lineComment <$> runStop chars (· ≠ '\n') index
  else if c = '/' && chars[index + 1]? = some '*' then
    Prod.mk .blockComment <$> blockCommentStop chars (index + 2)
  else if c = '"' then Prod.mk .string <$> quotedStop chars '"' (index + 1)
  else if c = '\'' then Prod.mk .character <$> quotedStop chars '\'' (index + 1)
  else if c.isDigit || (c = '.' && chars[index + 1]?.any Char.isDigit) then
    Prod.mk .number <$> numberStop chars '\x00' index
  else if isIdentStart c then wordAt chars index
  else if c = ':' && chars[index + 1]? = some ':' then .ok (.pathSeparator, index + 2)
  else .ok (.punctuation c, index + 1)

/-- The shape of a lexeme that starts in a given way with `c` at an index, and where it ends. -/
def endAt (index : Nat) (c : Char) : Lexeme.Start → Checked (Shape × Nat)
  | .blank => .ok (.blank, index + 1)
  | .directive => Prod.mk .directive <$> directiveStop chars index
  | .lineComment => Prod.mk .lineComment <$> runStop chars (· ≠ '\n') index
  | .blockComment => Prod.mk .blockComment <$> blockCommentStop chars (index + 2)
  | .string => Prod.mk .string <$> quotedStop chars '"' (index + 1)
  | .character => Prod.mk .character <$> quotedStop chars '\'' (index + 1)
  | .number => Prod.mk .number <$> numberStop chars '\x00' index
  | .word => wordAt chars index
  | .pathSeparator => .ok (.pathSeparator, index + 2)
  | .punctuation => .ok (.punctuation c, index + 1)

/-- Reading by index decides first how the lexeme starts, too. -/
theorem lexemeAt_eq_endAt (fresh : Bool) (index : Nat) (c : Char) :
    lexemeAt chars fresh index c = endAt chars index c (.of fresh c chars[index + 1]?) := by
  simp only [Lexeme.Start.of, apply_ite (endAt chars index c)]
  rfl

/-- Reads the lexeme at an index at which `c` stands. Its characters are a part of the text, and its
token, if it is one, comes behind those that were read before. -/
def tokenRound (state : Cursor × List Token) (index : Nat) (c : Char) :
    Checked (Round (Cursor × List Token) (List Token)) := do
  let (here, tokens) := state
  let (shape, stop) ← lexemeAt chars here.fresh index c
  let text ← Checked.slice chars index stop
  let lexeme : Lexeme := ⟨shape, text, []⟩
  .ok (.next (here.past lexeme, tokens ++ (here.token? lexeme).toList) stop)

/-- The tokens of the text from an index on, behind those that were read before. -/
def tokensAt : Cursor × List Token → Nat → Checked (List Token) :=
  loop chars (fun state _ => .ok state.2) (tokenRound chars)

end Lexemes

variable {chars cs : List Char}

theorem wordAt_offset (h : cs <:+ chars) :
    wordAt chars (offset chars cs) =
      .ok ((Lexeme.ofWord (takeRun isIdentRest cs)).shape,
        offset chars (Lexeme.ofWord (takeRun isIdentRest cs)).rest) := by
  have hword := whole_takeRun isIdentRest cs
  rw [wordAt, runStop_offset isIdentRest h, Checked.ok_bind]
  generalize takeRun isIdentRest cs = word at hword
  obtain ⟨taken, rest⟩ := word
  obtain rfl : taken ++ rest = cs := hword
  have hrest : rest <:+ chars := (List.suffix_append ..).trans h
  simp only [slice_offset h, Checked.ok_bind, getElem?_offset hrest]
  by_cases hstring : rest.head? = some '"'
  · obtain ⟨cs, rfl⟩ := List.head?_eq_some_iff.1 hstring
    have hcs := (List.suffix_cons ..).trans hrest
    simp only [Lexeme.ofWord, List.head?_cons, offset_cons hrest, rawStop_offset _ hcs,
      quotedStop_offset _ hcs, Checked.map_ok]
    split
    · simp_all [Lexeme.rest, Cut.extend]
    · split <;> simp_all [Lexeme.rest, Cut.extend]
  by_cases hcharacter : rest.head? = some '\''
  · obtain ⟨cs, rfl⟩ := List.head?_eq_some_iff.1 hcharacter
    have hcs := (List.suffix_cons ..).trans hrest
    simp only [Lexeme.ofWord, List.head?_cons, offset_cons hrest, quotedStop_offset _ hcs,
      Checked.map_ok]
    by_cases hword : taken ∈ Lexeme.literalPrefixes <;> simp [hword, Lexeme.rest, Cut.extend]
  · rw [Lexeme.ofWord_plain hstring hcharacter]
    simp [hstring, hcharacter, Lexeme.rest]

/-- A lexeme that starts in the same way ends in the same place. -/
theorem endAt_offset {fresh : Bool} {c : Char} (h : c :: cs <:+ chars) {start : Lexeme.Start}
    (hfits : start.Fits fresh c cs.head?) :
    endAt chars (offset chars (c :: cs)) c start =
      .ok ((start.read c cs).shape, offset chars (start.read c cs).rest) := by
  have hcs := (List.suffix_cons c cs).trans h
  have htwo {d : Char} (hd : cs.head? = some d) :
      cs.tail <:+ chars ∧ offset chars cs.tail = offset chars (c :: cs) + 2 := by
    obtain ⟨tail, rfl⟩ := List.head?_eq_some_iff.1 hd
    exact ⟨(List.suffix_cons ..).trans hcs, offset_append (show [c, d] ++ tail <:+ chars from h)⟩
  cases start with
  | blank | punctuation =>
    rw [endAt, offset_cons h]
    rfl
  | directive =>
    obtain ⟨rfl, -⟩ := hfits
    rw [endAt, directiveStop_offset h, directiveRest_cons (by decide) (by simp)]
    rfl
  | lineComment =>
    obtain ⟨rfl, -⟩ := hfits
    rw [endAt, runStop_offset _ h]
    rfl
  | blockComment =>
    obtain ⟨htail, hstop⟩ := htwo hfits.2
    rw [endAt, ← hstop, blockCommentStop_offset htail]
    rfl
  | string | character =>
    rw [endAt, offset_cons h, quotedStop_offset _ hcs]
    rfl
  | number =>
    have hpart : isNumberPart c = true := by
      obtain hdigit | ⟨rfl, -⟩ : c.isDigit ∨ c = '.' ∧ _ := by simpa [Lexeme.Start.Fits] using hfits
      · simp [isNumberPart, Char.isAlphanum, hdigit]
      · rfl
    have hrest : numberRest '\x00' (c :: cs) = (numberRest c cs).extend [c] := by
      simp [numberRest, hpart]
    rw [endAt, numberStop_offset _ h, hrest]
    rfl
  | word =>
    have hword : takeRun isIdentRest (c :: cs) = (takeRun isIdentRest cs).extend [c] :=
      if_pos (isIdentRest_of_isIdentStart hfits)
    rw [endAt, wordAt_offset h, hword]
    rfl
  | pathSeparator =>
    rw [endAt, ← (htwo hfits.2).2]
    rfl

theorem lexemeAt_offset (fresh : Bool) {c : Char} (h : c :: cs <:+ chars) :
    lexemeAt chars fresh (offset chars (c :: cs)) c =
      .ok ((Lexeme.next fresh c cs).shape, offset chars (Lexeme.next fresh c cs).rest) := by
  rw [lexemeAt_eq_endAt, peek_offset h, endAt_offset h (Lexeme.Start.of_fits ..), Lexeme.next_eq_read]

theorem tokenRound_offset (here : Cursor) (tokens : List Token) {c : Char} (h : c :: cs <:+ chars) :
    tokenRound chars (here, tokens) (offset chars (c :: cs)) c =
      .ok (.next
        (here.past (.next here.fresh c cs), tokens ++ (here.token? (.next here.fresh c cs)).toList)
        (offset chars (Lexeme.next here.fresh c cs).rest)) := by
  have hwhole : (Lexeme.next here.fresh c cs).text ++ (Lexeme.next here.fresh c cs).rest = c :: cs :=
    Lexeme.whole_next here.fresh c cs
  have htext := slice_offset (hwhole.symm ▸ h)
  rw [hwhole] at htext
  simp only [tokenRound, lexemeAt_offset here.fresh h, Checked.ok_bind, htext]
  rfl

theorem tokensAt_offset (here : Cursor) (tokens : List Token) (h : cs <:+ chars) :
    tokensAt chars (here, tokens) (offset chars cs) = .ok (tokens ++ here.tokens cs) := by
  fun_induction Cursor.tokens here cs generalizing tokens with
  | case1 => exact loop_nil.trans (by rw [List.append_nil])
  | case2 here c cs lexeme ih =>
    have hwhole : lexeme.text ++ lexeme.rest = c :: cs := Lexeme.whole_next here.fresh c cs
    have hrest : lexeme.rest <:+ cs :=
      suffix_of_length_lt (hwhole ▸ List.suffix_append ..) (Lexeme.length_rest_next_lt here.fresh c cs)
    have hchars := hrest.trans ((List.suffix_cons c cs).trans h)
    rw [← List.append_assoc]
    exact (loop_next h hrest (tokenRound_offset here tokens h)).trans (ih _ hchars)

/-- The tokens of a source text, by index. -/
def tokenizeAt (source : String) : Checked (List Token) :=
  tokensAt source.toList ({}, []) 0

theorem tokenizeAt_eq (source : String) : tokenizeAt source = .ok (tokenize source) := by
  simpa [tokenizeAt, tokenize] using tokensAt_offset {} [] (List.suffix_refl source.toList)

end EnumConverter.Source
