import EnumConverter.Proofs.Printing.Body

namespace EnumConverter.Printing

open Source Scan Text

namespace EnumNode

/-- The documentation of an enum whose lines start at `line`. -/
def doc (node : EnumNode) (line : Nat) : DocBlock :=
  if node.requests = [] then [] else annotationDoc node.requests line

end EnumNode

/-- The enum as written that is read where an enum of the tree stands. -/
def Site.raw (site : Site) : RawEnum where
  name := some site.node.name.text
  scope := site.scope
  isScoped := site.node.isScoped
  position := ⟨site.node.headerLine site.line, 1⟩
  doc := site.node.doc site.line
  enumerators := rawEnumerators (site.node.headerLine site.line + 1) site.node.members
  closed := true

variable {here : Cursor} {line : Nat}

/-- A comment at the start of a line opens a documentation block. -/
theorem observe_atLine (h : here.AtLine line) (style : CommentStyle) (text : List Char)
    (endLine : Nat) :
    DocBlock.observe [] (here.comment style text endLine) here.position.line =
      [⟨String.ofList text, style, line, endLine⟩] := by
  have hfresh : here.codeLine ≠ line := Nat.ne_of_lt h.code
  rw [h.position]
  simp [DocBlock.observe, DocBlock.push, Cursor.comment, h.position, hfresh]

theorem passes_annotationText (h : here.AtLine line) (requests : List Conversion)
    (scopes : ScopeStack) :
    Passes ⟨here, scopes, []⟩ (annotationText requests ++ ['\n']) {}
      ⟨(here.pastComment (annotationText requests)).pastBlank '\n', scopes,
        annotationDoc requests line⟩ := by
  intro final rest
  have hline : (here.position.after (annotationText requests)).line = line + requests.length + 2 := by
    rw [Position.line_after, h.position, count_lineFeed_annotationBlock, Nat.add_assoc]
  have hdoc := observe_atLine h .block (annotationText requests)
    (here.position.after (annotationText requests)).line
  rw [List.append_assoc, Spot.scan, tokens_annotationBlock, List.singleton_append,
    Cursor.tokens_blank _ (by decide), Cursor.blockComment, scanFrom_comment]
  change scanFrom final ⟨scopes, DocBlock.observe [] _ here.position.line⟩ _ = _
  rw [hdoc, hline]
  rfl

/-- The annotation of an enum is what documents it. -/
theorem passes_annotationBlock (h : here.AtLine line) (node : EnumNode) (scopes : ScopeStack) :
    ∃ there : Cursor, there.AtLine (node.headerLine line) ∧
      Passes ⟨here, scopes, []⟩ (unlines node.annotation).toList {}
        ⟨there, scopes, node.doc line⟩ := by
  by_cases hrequests : node.requests = []
  · refine ⟨here, by simpa [EnumNode.headerLine, EnumNode.annotation, hrequests] using h, ?_⟩
    simp only [EnumNode.annotation, hrequests, if_true, EnumNode.doc]
    exact fun final rest => rfl
  · have hend : (here.pastComment (annotationText node.requests)).position.line =
        line + (node.requests.length + 2) := by
      rw [Cursor.position_pastComment, Position.line_after, h.position, count_lineFeed_annotationBlock]
    have hcode : here.codeLine ≤ line + (node.requests.length + 2) :=
      Nat.le_trans (Nat.le_of_lt h.code) (Nat.le_add_right _ _)
    have hlength : node.annotation.length = node.requests.length + 2 + 1 := by
      simp [EnumNode.annotation, hrequests]
    refine ⟨(here.pastComment (annotationText node.requests)).pastBlank '\n', ?_, ?_⟩
    · rw [EnumNode.headerLine, hlength]
      exact Cursor.atLine_pastBlank hend hcode
    · rw [toList_unlines_annotationBlock hrequests, EnumNode.doc, if_neg hrequests]
      exact passes_annotationText h node.requests scopes

/-- The token of the word `class` behind `enum`, if it is there. -/
def keyTokens (isScoped : Bool) (position : Position) : List Token :=
  if isScoped then [⟨.ident "class", position⟩] else []

/-- The definition of a named enum is read up to the brace that closes its body. -/
theorem readEnum_named (node : EnumNode) (state : ScanState) (position key first second : Position)
    {inside rest : List Token} {enumerators : List RawEnumerator}
    (hbody : readBody {} inside = ⟨enumerators, true, rest⟩) :
    readEnum state position false (keyTokens node.isScoped key ++
        ⟨.ident node.name.text, first⟩ :: ⟨.punct '\x7b', second⟩ :: inside) =
      { state := { state with doc := [] }
        found := { enums := [⟨some node.name.text, state.scopes.scope, node.isScoped, position,
          state.doc, enumerators, true⟩] }
        rest } := by
  have hkey : readEnumKey (skipComments (keyTokens node.isScoped key ++
      ⟨.ident node.name.text, first⟩ :: ⟨.punct '\x7b', second⟩ :: inside)) =
      (node.isScoped, ⟨.ident node.name.text, first⟩ :: ⟨.punct '\x7b', second⟩ :: inside) := by
    cases hscoped : node.isScoped with
    | true => rfl
    | false =>
      obtain ⟨hclass, hstruct⟩ := node.notKey hscoped
      simp [keyTokens, skipComments, Token.isComment, Token.comment?, readEnumKey, Token.isIdent,
        hclass, hstruct]
  have hbase : skipBaseClause (⟨.punct '\x7b', second⟩ :: inside) =
      ⟨.punct '\x7b', second⟩ :: inside := rfl
  unfold readEnum
  rw [hkey]
  dsimp only
  rw [qualifiedName_mark node.name.notSpecifier (by decide), hbase]
  simp [Token.isPunct, hbody]

theorem tokens_header (here : Cursor) (node : EnumNode) (rest : List Char) :
    ∃ key first second, here.tokens (node.header.toList ++ rest) =
      ⟨.ident "enum", here.position⟩ :: (keyTokens node.isScoped key ++
        ⟨.ident node.name.text, first⟩ :: ⟨.punct '\x7b', second⟩ ::
          (here.pastCode node.header.toList).tokens rest) := by
  cases hscoped : node.isScoped with
  | true =>
    have htext : node.header.toList = "enum".toList ++ ' ' :: ("class".toList ++
        ' ' :: (node.name.text.toList ++ [' ', '\x7b'])) := by
      simp [EnumNode.header, hscoped]
    rw [htext]
    simp only [List.append_assoc, List.cons_append, List.nil_append]
    rw [here.tokens_word (by decide) (stopsWord_space _), Cursor.tokens_blank _ (by decide),
      Cursor.tokens_word _ (by decide) (stopsWord_space _), Cursor.tokens_blank _ (by decide),
      Cursor.tokens_word _ node.name.isWord (stopsWord_space _), Cursor.tokens_blank _ (by decide),
      Cursor.tokens_mark _ (by decide), String.ofList_toList]
    exact ⟨_, _, _, by simp [keyTokens]; exact ⟨rfl, rfl, rfl⟩⟩
  | false =>
    have htext : node.header.toList = "enum".toList ++
        ' ' :: (node.name.text.toList ++ [' ', '\x7b']) := by
      simp [EnumNode.header, hscoped]
    rw [htext]
    simp only [List.append_assoc, List.cons_append, List.nil_append]
    rw [here.tokens_word (by decide) (stopsWord_space _), Cursor.tokens_blank _ (by decide),
      Cursor.tokens_word _ node.name.isWord (stopsWord_space _), Cursor.tokens_blank _ (by decide),
      Cursor.tokens_mark _ (by decide), String.ofList_toList]
    exact ⟨.start, _, _, by simp [keyTokens]; exact ⟨rfl, rfl⟩⟩

theorem lineFeed_notMem_header (node : EnumNode) : '\n' ∉ node.header.toList := by
  have hname := lineFeed_notMem_of_isIdentifier node.name.isWord
  cases hscoped : node.isScoped <;> simpa [EnumNode.header, hscoped] using hname

/-- The lines of a definition are scanned as one enum. -/
theorem passes_definition (h : here.AtLine line) (node : EnumNode) (scopes : ScopeStack)
    (doc : DocBlock) :
    ∃ there : Cursor, there.AtLine (line + 1 + (memberLines node.members).length + 1) ∧
      Passes ⟨here, scopes, doc⟩
        (unlines (node.header :: memberLines node.members ++ ["\x7d;"])).toList
        { enums := [⟨some node.name.text, scopes.scope, node.isScoped, ⟨line, 1⟩, doc,
          rawEnumerators (line + 1) node.members, true⟩] }
        ⟨there, scopes, []⟩ := by
  obtain ⟨inside, ended, hinside, hread⟩ :=
    readBody_members (h.pastCode (lineFeed_notMem_header node)) node.members [] none
  refine ⟨_, hinside.pastCode (by decide : '\n' ∉ ['\x7d', ';']), ?_⟩
  intro final rest
  have htext : (unlines (node.header :: memberLines node.members ++ ["\x7d;"])).toList ++ rest =
      node.header.toList ++ '\n' :: ((unlines (memberLines node.members)).toList ++
        '\x7d' :: ';' :: '\n' :: rest) := by
    rw [List.cons_append, unlines, String.toList_append, toList_unlines_append]
    simp [unlines]
  obtain ⟨key, first, second, htokens⟩ := tokens_header here node ('\n' ::
    ((unlines (memberLines node.members)).toList ++ '\x7d' :: ';' :: '\n' :: rest))
  have hbody : readBody {} (((here.pastCode node.header.toList).pastBlank '\n').tokens
      ((unlines (memberLines node.members)).toList ++ '\x7d' :: ';' :: '\n' :: rest)) =
      ⟨rawEnumerators (line + 1) node.members, true,
        (inside.pastCode ['\x7d']).tokens (';' :: '\n' :: rest)⟩ := by
    refine (hread _).trans ?_
    rw [inside.tokens_mark (by decide), List.append_nil]
    exact congrArg (Body.mk · true _) (List.reverse_reverse _)
  rw [htext, Spot.scan, htokens, Cursor.tokens_blank _ (by decide), scanFrom]
  change (readEnum _ here.position false _).found ++ scanFrom final
    (readEnum _ here.position false _).state (readEnum _ here.position false _).rest = _
  rw [readEnum_named node _ _ key first second hbody, h.position, Cursor.tokens_mark _ (by decide),
    Cursor.tokens_blank _ (by decide)]
  dsimp only
  rw [scanFrom_idle rfl, Cursor.pastCode_pastCode]
  rfl

theorem length_lines (node : EnumNode) (line : Nat) :
    line + node.lines.length =
      node.headerLine line + 1 + (memberLines node.members).length + 1 := by
  simp only [EnumNode.lines, EnumNode.headerLine, List.length_append, List.length_cons,
    List.length_nil]
  omega

/-- The lines of an enum are scanned as that enum. -/
theorem passes_enumeration (h : here.AtLine line) (node : EnumNode) (scopes : ScopeStack) :
    ∃ there : Cursor, there.AtLine (line + node.lines.length) ∧
      Passes ⟨here, scopes, []⟩ (unlines node.lines).toList
        { enums := [Site.raw ⟨node, scopes.scope, line⟩] } ⟨there, scopes, []⟩ := by
  obtain ⟨middle, hmiddle, hannotation⟩ := passes_annotationBlock h node scopes
  obtain ⟨there, hthere, hdefinition⟩ := passes_definition hmiddle node scopes (node.doc line)
  refine ⟨there, by rwa [length_lines], ?_⟩
  rw [EnumNode.lines, List.append_assoc, toList_unlines_append]
  exact hannotation.then hdefinition

theorem scope_enter (scopes : ScopeStack) (segments : Scope) (line : Nat) :
    (scopes.enter segments line).scope = scopes.scope ++ segments := by
  simp [ScopeStack.scope, ScopeStack.enter]

mutual

/-- The lines of an item are scanned as the enums in it. -/
theorem passes_item : (item : Item) → {here : Cursor} → {line : Nat} → here.AtLine line →
    (scopes : ScopeStack) → ∃ there : Cursor, there.AtLine (line + item.lines.length) ∧
      Passes ⟨here, scopes, []⟩ (unlines item.lines).toList
        { enums := (item.sites scopes.scope line).map Site.raw } ⟨there, scopes, []⟩
  | .block opening inside, here, line, h, scopes => by
    obtain ⟨first, hfirst, hopening⟩ := passes_row h (lineFeed_notMem_opening opening)
      (passes_opening opening here scopes [])
    obtain ⟨last, hlast, hinside⟩ :=
      passes_items inside hfirst (scopes.enter opening.segments here.position.line)
    obtain ⟨there, hthere, hclosing⟩ := passes_row hlast (lineFeed_notMem_closing opening)
      (passes_closing opening last ⟨opening.segments, here.position.line⟩ scopes [])
    refine ⟨there, ?_, ?_⟩
    · have hlength : line + (Item.block opening inside).lines.length =
          line + 1 + (itemLines inside).length + 1 := by
        simp only [Item.lines, List.length_append, List.length_cons, List.length_nil]
        omega
      rwa [hlength]
    · have htext : (unlines (Item.block opening inside).lines).toList =
          (unlines [opening.line]).toList ++
            ((unlines (itemLines inside)).toList ++ (unlines [opening.closing]).toList) := by
        rw [Item.lines, List.cons_append, ← List.singleton_append, toList_unlines_append,
          toList_unlines_append]
      rw [scope_enter] at hinside
      have hall := hopening.then (hinside.trans hclosing)
      rw [Outline.append_empty] at hall
      rw [htext]
      exact hall
  | .enumeration node, _, _, h, scopes => passes_enumeration h node scopes

/-- The lines of items are scanned as the enums in them. -/
theorem passes_items : (items : List Item) → {here : Cursor} → {line : Nat} → here.AtLine line →
    (scopes : ScopeStack) → ∃ there : Cursor, there.AtLine (line + (itemLines items).length) ∧
      Passes ⟨here, scopes, []⟩ (unlines (itemLines items)).toList
        { enums := (sites scopes.scope line items).map Site.raw } ⟨there, scopes, []⟩
  | [], here, _, h, _ => ⟨here, h, fun _ _ => rfl⟩
  | item :: items, _, line, h, scopes => by
    obtain ⟨middle, hmiddle, hitem⟩ := passes_item item h scopes
    obtain ⟨there, hthere, hitems⟩ := passes_items items hmiddle scopes
    refine ⟨there, ?_, ?_⟩
    · rw [itemLines, List.length_append, ← Nat.add_assoc]
      exact hthere
    · rw [itemLines, toList_unlines_append, sites, List.map_append]
      exact hitem.trans hitems

end

/-- Scanning a printed tree finds the enums of the tree and reports nothing. -/
theorem scan_print (items : List Item) :
    scan (print items) = { enums := (sites [] 1 items).map Site.raw } := by
  obtain ⟨there, -, hitems⟩ := passes_items items Cursor.atLine_start []
  exact scan_of_passes hitems rfl

end EnumConverter.Printing
