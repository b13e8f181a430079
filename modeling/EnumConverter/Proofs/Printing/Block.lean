import EnumConverter.Proofs.Printing.Annotation

namespace EnumConverter

open Source Scan Text

namespace Source.Cursor

/-- The cursor stands at the start of a line, and no code has been read on it. -/
structure AtLine (here : Cursor) (line : Nat) : Prop where
  position : here.position = ⟨line, 1⟩
  code : here.codeLine < line

theorem atLine_start : ({} : Cursor).AtLine 1 :=
  ⟨rfl, by decide⟩

/-- Behind a line feed, the cursor stands at the start of the next line. -/
theorem atLine_pastBlank {here : Cursor} {line : Nat} (hline : here.position.line = line)
    (hcode : here.codeLine ≤ line) : (here.pastBlank '\n').AtLine (line + 1) :=
  ⟨by rw [← hline]; rfl, Nat.lt_succ_of_le hcode⟩

theorem AtLine.pastCode {here : Cursor} {line : Nat} (h : here.AtLine line) {text : List Char}
    (hfeed : '\n' ∉ text) : ((here.pastCode text).pastBlank '\n').AtLine (line + 1) := by
  have hline : (here.pastCode text).position.line = line := by
    rw [position_pastCode, Position.line_after_of_notMem _ hfeed, h.position]
  exact atLine_pastBlank hline (Nat.le_of_eq hline)

end Source.Cursor

namespace Printing

/-- A line of code is scanned together with its line feed. -/
theorem passes_row {here : Cursor} {line : Nat} (hline : here.AtLine line) {before after : ScanState}
    {text : String} {found : Outline} (hfeed : '\n' ∉ text.toList)
    (h : Passes ⟨here, before⟩ text.toList found ⟨here.pastCode text.toList, after⟩) :
    ∃ there : Cursor, there.AtLine (line + 1) ∧
      Passes ⟨here, before⟩ (unlines [text]).toList found ⟨there, after⟩ := by
  refine ⟨_, hline.pastCode hfeed, ?_⟩
  have hblank : Text.isBlank '\n' = true := by decide
  have hend := h.trans (passes_blank (here.pastCode text.toList) after hblank)
  rw [Outline.append_empty] at hend
  rwa [show (unlines [text]).toList = text.toList ++ ['\n'] by simp [unlines]]

theorem readType_name {name : String} (hname : name ∉ specifierWords) (scopes : ScopeStack)
    (line : Nat) (first second : Position) (inside : List Token) :
    readType scopes line (⟨.ident name, first⟩ :: ⟨.punct '\x7b', second⟩ :: inside) =
      { state := { scopes := scopes.enter [⟨name, .typeScope⟩] line }, rest := inside } := by
  have hskip : skipComments (⟨.ident name, first⟩ :: ⟨.punct '\x7b', second⟩ :: inside) =
      ⟨.ident name, first⟩ :: ⟨.punct '\x7b', second⟩ :: inside := rfl
  unfold readType
  rw [hskip, qualifiedName_mark hname (by decide)]
  rfl

theorem passes_typeHeader (here : Cursor) (scopes : ScopeStack) (doc : DocBlock) (name : TypeName)
    {key : String} (hkey : key ∈ typeWords) :
    Passes ⟨here, scopes, doc⟩ (typeHeader key name).toList {}
      ⟨here.pastCode (typeHeader key name).toList,
        scopes.enter [⟨name.text, .typeScope⟩] here.position.line, []⟩ := by
  intro final rest
  have hword : isIdentifier key.toList = true ∧ key ≠ "namespace" := by
    simp only [typeWords, List.mem_cons, List.not_mem_nil, or_false] at hkey
    rcases hkey with rfl | rfl | rfl <;> decide
  have htext : (typeHeader key name).toList =
      key.toList ++ ' ' :: (name.text.toList ++ [' ', '\x7b']) := by
    simp [typeHeader]
  change scanFrom final _ (here.tokens (_ ++ rest)) = _
  rw [htext, List.append_assoc, List.cons_append, List.append_assoc, List.cons_append,
    List.cons_append, List.nil_append, here.tokens_word hword.1 (stopsWord_space _),
    Cursor.tokens_blank _ (by decide), Cursor.tokens_word _ name.isWord (stopsWord_space _),
    Cursor.tokens_blank _ (by decide), Cursor.tokens_mark _ (by decide), scanFrom]
  simp only [String.ofList_toList, step, hword.2, hkey, if_true, if_false,
    readType_name name.notSpecifier]
  simp [Spot.scan]

theorem passes_linkageHeader (here : Cursor) (scopes : ScopeStack) (doc : DocBlock) :
    Passes ⟨here, scopes, doc⟩ Opening.linkage.line.toList {}
      ⟨here.pastCode Opening.linkage.line.toList, scopes.enter [] here.position.line, []⟩ := by
  intro final rest
  change scanFrom final _ (here.tokens ("extern".toList ++ ' ' :: '"' :: (['C', '"'] ++
    ' ' :: '\x7b' :: rest))) = _
  rw [here.tokens_word (by decide) (stopsWord_space _), Cursor.tokens_blank _ (by decide),
    Cursor.tokens_string _ rfl, Cursor.tokens_blank _ (by decide), Cursor.tokens_mark _ (by decide),
    scanFrom_idle rfl, scanFrom_idle rfl, scanFrom]
  rfl

/-- The line of an opening opens one scope with its names. -/
theorem passes_opening (opening : Opening) (here : Cursor) (scopes : ScopeStack) (doc : DocBlock) :
    Passes ⟨here, scopes, doc⟩ opening.line.toList {}
      ⟨here.pastCode opening.line.toList, scopes.enter opening.segments here.position.line, []⟩ := by
  cases opening with
  | namespaceOf names =>
    refine passes_namespaceHeader here scopes doc ?_ ?_
    · intro name hname
      obtain ⟨spelled, -, rfl⟩ := List.mem_map.1 hname
      exact spelled.isWord
    · intro hinline
      obtain ⟨spelled, -, hspelled⟩ := List.mem_map.1 hinline
      exact spelled.notInline hspelled
  | structOf name => exact passes_typeHeader here scopes doc name (by decide)
  | classOf name => exact passes_typeHeader here scopes doc name (by decide)
  | linkage => exact passes_linkageHeader here scopes doc

theorem lineFeed_notMem_opening (opening : Opening) : '\n' ∉ opening.line.toList := by
  have hname (name : Name) : '\n' ∉ name.text.toList := lineFeed_notMem_of_isIdentifier name.isWord
  cases opening with
  | namespaceOf names =>
    cases names with
    | nil => decide
    | cons name names =>
      have hjoined : '\n' ∉ (joined "::" ((name :: names).map (·.text))).toList := by
        refine notMem_joined (by decide) ?_
        intro text htext
        obtain ⟨spelled, -, rfl⟩ := List.mem_map.1 htext
        exact hname spelled.toName
      simpa [Opening.line, namespaceHeader] using hjoined
  | structOf name | classOf name => simpa [Opening.line, typeHeader] using hname name.toName
  | linkage => decide

theorem lineFeed_notMem_closing (opening : Opening) : '\n' ∉ opening.closing.toList := by
  cases opening with
  | namespaceOf | linkage => exact (by decide : '\n' ∉ "\x7d".toList)
  | structOf | classOf => exact (by decide : '\n' ∉ "\x7d;".toList)

theorem passes_closing (opening : Opening) (here : Cursor) (scope : OpenScope) (scopes : ScopeStack)
    (doc : DocBlock) :
    Passes ⟨here, scope :: scopes, doc⟩ opening.closing.toList {}
      ⟨here.pastCode opening.closing.toList, scopes, []⟩ := by
  have hbrace := passes_closeBrace here scope scopes doc
  have hsemicolon := hbrace.then
    (passes_mark (here.pastCode ['\x7d']) ⟨scopes, []⟩ (by decide : ';' ∈ Lexeme.marks) (by decide))
  have hplain : "\x7d".toList = ['\x7d'] := rfl
  have hended : "\x7d;".toList = ['\x7d'] ++ [';'] := rfl
  cases opening with
  | namespaceOf | linkage =>
    rw [Opening.closing, hplain]
    exact hbrace
  | structOf | classOf =>
    rw [Opening.closing, hended, ← Cursor.pastCode_pastCode]
    exact hsemicolon

end Printing

end EnumConverter
