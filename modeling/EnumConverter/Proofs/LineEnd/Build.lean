import EnumConverter.Build
import EnumConverter.Proofs.LineEnd.Comment
import EnumConverter.Proofs.Scan.Words
import EnumConverter.Proofs.Spelling.Tokens

namespace EnumConverter

open Text Source Scan

/-- Words comments with returns and leaves everything where it is. -/
def returns : Placement where
  lines := 0
  wording := returned
  isContinuation_wording := isContinuation_returned

namespace Source

theorem Position.after_withReturns (here : Position) (cs : List Char) :
    here.after (withReturns cs) = here.after cs := by
  induction cs generalizing here with
  | nil => rfl
  | cons c cs ih =>
    by_cases hc : c = '\n'
    · subst hc
      exact ih _
    · rw [withReturns_cons hc]
      exact ih _

namespace Cursor

/-- The lexemes of a text that is read from here. -/
def lexemes (here : Cursor) : List Char → List Lexeme
  | [] => []
  | c :: cs =>
    let lexeme := Lexeme.next here.fresh c cs
    lexeme :: (here.past lexeme).lexemes lexeme.rest
termination_by input => input.length
decreasing_by exact Lexeme.length_rest_next_lt _ _ _

/-- The token of a line comment is the same whatever blanks end its line. -/
theorem kind_lineComment (here : Cursor) {taken text : List Char} (htaken : '\n' ∉ taken)
    (htext : trimEnd text = trimEnd taken) (line : Nat) :
    TokenKind.comment (here.comment .line (trimEnd text) line) =
      returns.kind (.comment (here.comment .line (trimEnd taken) line)) := by
  have htrimmed : '\n' ∉ trimEnd taken := by
    intro hmem
    rw [trimEnd, List.mem_reverse] at hmem
    exact htaken (List.mem_reverse.1 ((List.dropWhile_suffix _).mem hmem))
  have hsame : returned (String.ofList (trimEnd taken)) = String.ofList (trimEnd taken) := by
    simp [returned, withReturns_eq_self htrimmed]
  rw [htext]
  simp only [Placement.kind, Placement.comment, comment, returns, hsame, Nat.add_zero]

/-- The token of a lexeme is the same with returns, only worded with them if it is a comment. -/
theorem kind?_returned (here : Cursor) {lexeme lexeme' : Lexeme} (h : lexeme.Returned lexeme')
    (hinline : lexeme.shape = .identifier ∨ lexeme.shape = .lineComment → '\n' ∉ lexeme.text) :
    here.kind? lexeme' = (here.kind? lexeme).map returns.kind := by
  cases h with
  | same shape taken rest =>
    cases shape with
    | identifier =>
      have htaken : withReturns taken = taken := withReturns_eq_self (hinline (.inl rfl))
      rw [htaken]
      rfl
    | lineComment =>
      have htaken : '\n' ∉ taken := hinline (.inr rfl)
      rw [withReturns_eq_self htaken]
      exact congrArg some (here.kind_lineComment htaken rfl _)
    | blockComment =>
      have hblock : String.ofList (withReturns taken) = returned (String.ofList taken) := by
        simp [returned]
      simp only [kind?, Lexeme.text, Position.after_withReturns, comment, hblock]
      rfl
    | _ => rfl
  | lineEnd shape hshape taken rest =>
    simp only [Lexeme.lineShapes, List.mem_cons, List.not_mem_nil, or_false] at hshape
    obtain rfl | rfl | rfl | rfl := hshape
    · rfl
    · have htaken : '\n' ∉ taken := hinline (.inr rfl)
      rw [withReturns_eq_self htaken]
      exact congrArg some (here.kind_lineComment htaken (trimEnd_append_return taken) _)
    · rfl
    · rfl

/-- Behind a lexeme, the text with returns goes on as if no return was taken at the end of the line. -/
theorem tokens_past_returned (here : Cursor) {lexeme lexeme' : Lexeme} (h : lexeme.Returned lexeme')
    (hblank : lexeme.shape ≠ .blank) :
    (here.past lexeme').tokens lexeme'.rest =
      (here.past lexeme).tokens (withReturns lexeme.rest) := by
  cases h with
  | same shape taken rest =>
    have hpast : here.past ⟨shape, withReturns taken, withReturns rest⟩ =
        here.past ⟨shape, taken, rest⟩ := by
      cases shape <;> simp_all [past, Lexeme.text, Position.after_withReturns]
    rw [hpast]
    rfl
  | lineEnd shape hshape taken rest =>
    have hpast : here.past ⟨shape, withReturns taken ++ ['\r'], '\n' :: withReturns rest⟩ =
        (here.past ⟨shape, taken, '\n' :: rest⟩).pastBlank '\r' := by
      simp only [Lexeme.lineShapes, List.mem_cons, List.not_mem_nil, or_false] at hshape
      obtain rfl | rfl | rfl | rfl := hshape <;>
        simp [past, pastBlank, Lexeme.text, Position.after_append, Position.after_withReturns,
          Position.advance]
    rw [hpast]
    exact (tokens_blank _ isBlank_return _).symm

/-- A text with returns has the same tokens in the same places. -/
theorem tokens_withReturns (here : Cursor) {cs : List Char} (hreturn : '\r' ∉ cs)
    (hjoins : ∀ lexeme ∈ here.lexemes cs, lexeme.joinsLines = false) :
    here.tokens (withReturns cs) = returns.tokens (here.tokens cs) := by
  fun_induction Cursor.tokens here cs with
  | case1 here => simp
  | case2 here c cs lexeme =>
    rename_i ih
    rw [lexemes, List.forall_mem_cons] at hjoins
    have hwhole : lexeme.text ++ lexeme.rest = c :: cs := Lexeme.text_append_rest ..
    have hrest : '\r' ∉ lexeme.rest := by
      rw [← hwhole, List.mem_append, not_or] at hreturn
      exact hreturn.2
    have ih := ih hrest hjoins.2
    cases hblank : isBlank c with
    | true =>
      have hlexeme : lexeme = ⟨.blank, [c], cs⟩ := by simp [lexeme, Lexeme.next, hblank]
      have hpast : here.past lexeme = here.pastBlank c := by
        rw [hlexeme]
        simp [past, pastBlank, Lexeme.text]
      have htoken : here.token? lexeme = none := by
        rw [hlexeme]
        rfl
      rw [htoken, Option.toList_none, List.nil_append, ← ih, hpast, hlexeme]
      by_cases hc : c = '\n'
      · -- The return is one more blank, and the line feed behind it starts the next line anyway.
        subst hc
        rw [withReturns_lineFeed, tokens_blank here isBlank_return, tokens_blank _ hblank]
        simp [pastBlank, Position.advance, Lexeme.rest]
      · rw [withReturns_cons hc, tokens_blank here hblank]
        rfl
    | false =>
      have hfeed : c ≠ '\n' := by
        rintro rfl
        exact absurd hblank (by decide)
      have htail : '\r' ∉ cs := fun hmem => hreturn (List.mem_cons_of_mem _ hmem)
      have hreturned := Lexeme.next_returned hblank htail hjoins.1
      have hopening : Lexeme.Opening here.fresh c cs lexeme := Lexeme.opening_next ..
      have hshape : lexeme.shape ≠ .blank := by
        intro hshape
        exact absurd (hopening.of_blank hshape).1 (by simp [hblank])
      have hkind := here.kind?_returned hreturned fun hshape => hshape.elim
        (fun hword => lineFeed_notMem_of_isIdentifier (hopening.of_identifier hword))
        fun hline => (hopening.of_lineComment hline).2.1
      have hposition : returns.position here.position = here.position := rfl
      rw [withReturns_cons hfeed, tokens, here.tokens_past_returned hreturned hshape, token?, hkind]
      change _ ++ (here.past lexeme).tokens (withReturns lexeme.rest) = _
      rw [ih, Placement.tokens, Placement.tokens, List.map_append, token?]
      cases here.kind? lexeme <;> rfl

end Cursor

/-- Whether an ordinary literal of a source text goes on behind the end of a line. -/
def joinsLines (source : String) : Bool :=
  (({} : Cursor).lexemes source.toList).any Lexeme.joinsLines

theorem tokenize_returned {source : String} (hreturn : '\r' ∉ source.toList)
    (hjoins : joinsLines source = false) :
    tokenize (returned source) = returns.tokens (tokenize source) := by
  unfold tokenize
  rw [toList_returned]
  refine Cursor.tokens_withReturns _ hreturn fun lexeme hlexeme => ?_
  simpa using List.any_eq_false.1 hjoins lexeme hlexeme

end Source

theorem contentLines_returns (block : DocBlock) :
    DocBlock.contentLines (returns.doc block) = block.contentLines := by
  have hcomment (comment : DocComment) :
      Source.contentLines (returns.docComment comment).text (returns.docComment comment).style
        (returns.docComment comment).line =
      Source.contentLines comment.text comment.style comment.line :=
    contentLines_returned comment.text comment.style comment.line
  simp only [DocBlock.contentLines, Placement.doc, List.flatMap_map, hcomment]

theorem overrideTexts_returns (enumerator : RawEnumerator) :
    (returns.enumerator enumerator).overrideTexts = enumerator.overrideTexts := by
  simp only [RawEnumerator.overrideTexts, Placement.enumerator, List.map_map]
  refine List.map_congr_left fun comment _ => ?_
  exact overrideText_returned comment.text comment.style

theorem buildEnumerators_returns (path : QualifiedPath) (seen : List String)
    (enumerators : List RawEnumerator) :
    buildEnumerators path seen (enumerators.map returns.enumerator) =
      buildEnumerators path seen enumerators := by
  induction enumerators generalizing seen with
  | nil => rfl
  | cons raw rest ih =>
    have hname : (returns.enumerator raw).name = raw.name := rfl
    have hposition : (returns.enumerator raw).position = raw.position := rfl
    rw [List.map_cons, buildEnumerators, buildEnumerators, hname, hposition, overrideTexts_returns,
      ih, ih]
    rfl

/-- An enum is declared in the same way with returns in its comments. -/
theorem buildEnum_returns (settings : BuildSettings) (declared : List QualifiedPath) (raw : RawEnum) :
    buildEnum settings declared (returns.rawEnum raw) = buildEnum settings declared raw := by
  have hdoc : DocBlock.contentLines (returns.rawEnum raw).doc = raw.doc.contentLines :=
    contentLines_returns raw.doc
  have hadmission (directives : Annotation.Directives) :
      admission settings declared (returns.rawEnum raw) directives =
        admission settings declared raw directives := by
    simp [admission, Placement.rawEnum]
  unfold buildEnum
  rw [hdoc]
  cases settings.marker.directives? raw.doc.contentLines with
  | none => rfl
  | some directives =>
    dsimp only
    rw [hadmission]
    cases admission settings declared raw directives with
    | error rejection => cases rejection <;> rfl
    | ok path =>
      have henumerators : buildEnumerators path [] (returns.rawEnum raw).enumerators =
          buildEnumerators path [] raw.enumerators :=
        buildEnumerators_returns path [] raw.enumerators
      dsimp only
      rw [henumerators]
      rfl

theorem buildEnums_returns (settings : BuildSettings) (declared : List QualifiedPath)
    (enums : List RawEnum) :
    buildEnums settings declared (enums.map returns.rawEnum) = buildEnums settings declared enums := by
  induction enums generalizing declared with
  | nil => rfl
  | cons raw rest ih =>
    rw [List.map_cons, buildEnums, buildEnums, buildEnum_returns]
    dsimp only
    rw [ih]

/-- A header that is saved with a carriage return before every line feed gives the same declarations
and the same diagnostics, if none of its ordinary literals goes on behind the end of a line. -/
theorem build_returned (settings : BuildSettings) (source : String)
    (hreturn : '\r' ∉ source.toList) (hjoins : joinsLines source = false) :
    build settings (returned source) = build settings source := by
  unfold build scan
  dsimp only
  rw [tokenize_returned hreturn hjoins, returns.enums_scanTokens_tokens,
    returns.diagnostics_scanTokens_tokens rfl, buildEnums_returns]

/-- A header with a continued directive, a block comment, a raw string over two lines, an escaped quote
and a literal that is not closed. -/
def mixedText : String :=
  "#d \\\n y\n/* @cpp_codegen\n * string_serialization */ enum e \x7b a = R\"(\n)\" \x7d; \"\\\" \n'"

theorem build_returned_mixedText :
    joinsLines mixedText = false ∧ build {} (returned mixedText) = build {} mixedText := by
  have hjoins : joinsLines mixedText = false := by decide +kernel
  exact ⟨hjoins, build_returned {} mixedText (by decide +kernel) hjoins⟩

/-- A literal with a brace behind the end of a line. -/
def joinedText : String :=
  "\"\\\n\x7b\""

/-- With a carriage return before the line feed the literal ends there, so that the brace is code that
nothing closes. -/
theorem build_returned_joinedText :
    '\r' ∉ joinedText.toList ∧ (build {} joinedText).diagnostics = [] ∧
      (build {} (returned joinedText)).diagnostics.map (·.kind) = [.unbalancedScope] := by
  decide +kernel

end EnumConverter
