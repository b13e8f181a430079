import EnumConverter.Proofs.Emit.Literal
import EnumConverter.Proofs.Placed.Beside

namespace EnumConverter.Emit

open Source

/-- The characters of a literal between its quotes. -/
theorem toList_quote (value : String) :
    (quote value).toList = '"' :: (value.toList.flatMap escapeChar ++ ['"']) := by
  simp [quote, quoteChars]

theorem quote_injective : Function.Injective quote := by
  intro value other h
  have hread := literal?_quote value
  rw [h, literal?_quote other] at hread
  exact (Option.some.inj hread).symm

/-- A literal is one piece of the text, whatever follows it. -/
theorem next_quote (fresh : Bool) (value : String) (rest : List Char) :
    Lexeme.next fresh '"' (value.toList.flatMap escapeChar ++ ['"'] ++ rest) =
      ⟨.string, (quote value).toList, rest⟩ := by
  have hclosed := Scan.quotedRest_value value.toList rest
  change Lexeme.mk .string ((quotedRest '"' _).extend ['"']) = _
  rw [List.append_assoc, List.singleton_append, hclosed, toList_quote]
  rfl

theorem placed_quote (here : Cursor) (offset : Nat) (value : String) (rest : List Char) :
    here.placed offset ((quote value).toList ++ rest) =
      (⟨offset, offset + (quote value).length⟩, ⟨.string, here.position⟩) ::
        (here.pastCode (quote value).toList).placed (offset + (quote value).length) rest := by
  have hlength : (quote value).length = (quote value).toList.length := String.length_toList.symm
  rw [hlength]
  nth_rewrite 1 [toList_quote]
  rw [List.cons_append, Cursor.placed, next_quote]
  rfl

/-- The cursor behind a literal at the start of a text: on the same line, and code ends on it. -/
def behindQuote (value : String) : Cursor where
  position := ⟨1, 1 + (quote value).length⟩
  fresh := false
  codeLine := 1

theorem pastCode_quote (value : String) :
    ({} : Cursor).pastCode (quote value).toList = behindQuote value := by
  have hfeed := lineFeed_notMem_quote value
  have hposition : Position.start.after (quote value).toList = ⟨1, 1 + (quote value).length⟩ := by
    rw [start_after_eq, List.count_eq_zero.2 hfeed, lastLine_of_notMem hfeed, String.length_toList]
  unfold Cursor.pastCode
  rw [hposition]
  rfl

theorem placedTokens_quote (value rest : String) :
    placedTokens (quote value ++ rest) =
      (⟨0, (quote value).length⟩, ⟨.string, .start⟩) ::
        (behindQuote value).placed (quote value).length rest.toList := by
  rw [placedTokens, String.toList_append, placed_quote, pastCode_quote, Nat.zero_add]

/-- What follows a literal has the tokens that it has alone, further right on the first line, unless it
starts with a directive. -/
theorem tokens_behindQuote (value : String) {rest : String}
    (h : opensDirective rest.toList = false) :
    (behindQuote value).tokens rest.toList =
      (tokenize rest).map (Token.beside (quote value).length) := by
  have hlines : ({ fresh := false } : Cursor).OnLines := ⟨Nat.le_refl _, Nat.zero_le _⟩
  have hbeside : behindQuote value =
      Cursor.beside (quote value).length { fresh := false } := rfl
  have hstale : ({ fresh := false } : Cursor).tokens rest.toList = tokenize rest :=
    Cursor.tokens_eq_of_opensDirective h rfl rfl
  rw [hbeside, Cursor.tokens_beside _ hlines, hstale]

theorem tokenize_quote_append (value rest : String) :
    tokenize (quote value ++ rest) =
      ⟨.string, .start⟩ :: (behindQuote value).tokens rest.toList := by
  have htokens : tokenize (quote value ++ rest) = (placedTokens (quote value ++ rest)).map (·.2) :=
    (Cursor.map_placed {} 0 _).symm
  rw [htokens, placedTokens_quote, List.map_cons, Cursor.map_placed]

/-- Every text is read back from its literal. The literal stands between quotes and has no control
characters, and no other text has the same one. Wherever it starts a source text it is one token that
covers it exactly. What follows has the tokens that it has alone, unless it starts with a directive. -/
theorem quote_read_back (value : String) :
    (∃ inner, (quote value).toList = '"' :: (inner ++ ['"'])) ∧
    (∀ c ∈ (quote value).toList, 0x20 ≤ c.toNat) ∧
    literal? (quote value) = some value ∧
    (∀ other, quote other = quote value → other = value) ∧
    ∀ rest : String,
      placedTokens (quote value ++ rest) =
        (⟨0, (quote value).length⟩, ⟨.string, .start⟩) ::
          (behindQuote value).placed (quote value).length rest.toList ∧
      (opensDirective rest.toList = false →
        tokenize (quote value ++ rest) =
          ⟨.string, .start⟩ :: (tokenize rest).map (Token.beside (quote value).length)) := by
  refine ⟨⟨_, toList_quote value⟩, toNat_of_mem_quote value, literal?_quote value,
    fun other h => quote_injective h, fun rest => ⟨placedTokens_quote value rest, fun h => ?_⟩⟩
  rw [tokenize_quote_append, tokens_behindQuote value h]

/-- A value with a quote, a backslash and a control character before hexadecimal digits, and a backslash
at its end. A comment, a quote inside it and a directive on the next line follow the literal. -/
theorem quote_read_back_hostile :
    quote "\"\\\x01af\\" = "\"\\\"\\\\\\u0001af\\\\\"" ∧
    (∀ other, quote other = quote "\"\\\x01af\\" → other = "\"\\\x01af\\") ∧
    opensDirective "/* \" */\n#".toList = false ∧
    tokenize (quote "\"\\\x01af\\" ++ "/* \" */\n#") =
      ⟨.string, .start⟩ :: (tokenize "/* \" */\n#").map (Token.beside 16) := by
  obtain ⟨-, -, -, hinjective, hrest⟩ := quote_read_back "\"\\\x01af\\"
  have hquote : quote "\"\\\x01af\\" = "\"\\\"\\\\\\u0001af\\\\\"" := by decide +kernel
  have hdirective : opensDirective "/* \" */\n#".toList = false := by decide +kernel
  obtain ⟨-, htokens⟩ := hrest "/* \" */\n#"
  exact ⟨hquote, hinjective, hdirective, htokens hdirective⟩

/-- A number sign behind a literal starts no directive, as it does at the start of a text: it and the
word behind it are tokens there and none alone. -/
theorem tokenize_quote_numberSign :
    tokenize "#b" = [] ∧
    tokenize (quote "a" ++ "#b") =
      [⟨.string, .start⟩, ⟨.punct '#', ⟨1, 4⟩⟩, ⟨.ident "b", ⟨1, 5⟩⟩] := by
  constructor <;> decide +kernel

end EnumConverter.Emit
