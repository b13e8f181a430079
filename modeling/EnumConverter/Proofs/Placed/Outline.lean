import EnumConverter.Proofs.Placed.Name
import EnumConverter.Proofs.Scan.Step

namespace EnumConverter

open Source Scan

namespace Placement

variable (placement : Placement)

def docComment (comment : DocComment) : DocComment :=
  { comment with
    text := placement.wording comment.text
    line := comment.line + placement.lines
    endLine := comment.endLine + placement.lines }

def doc (block : DocBlock) : DocBlock :=
  block.map placement.docComment

def trailingComment (comment : TrailingComment) : TrailingComment :=
  { comment with text := placement.wording comment.text }

def enumerator (enumerator : RawEnumerator) : RawEnumerator :=
  { enumerator with
    position := placement.position enumerator.position
    trailing := enumerator.trailing.map placement.trailingComment }

def rawEnum (raw : RawEnum) : RawEnum :=
  { raw with
    position := placement.position raw.position
    doc := placement.doc raw.doc
    enumerators := raw.enumerators.map placement.enumerator }

def diagnostic (diagnostic : Diagnostic) : Diagnostic :=
  { diagnostic with position := placement.position diagnostic.position }

def outline (outline : Outline) : Outline :=
  ⟨outline.enums.map placement.rawEnum, outline.diagnostics.map placement.diagnostic⟩

def scopes (stack : ScopeStack) : ScopeStack :=
  stack.map fun scope => { scope with line := scope.line + placement.lines }

def state (state : ScanState) : ScanState :=
  ⟨placement.scopes state.scopes, placement.doc state.doc⟩

def step (step : Step) : Step :=
  ⟨placement.state step.state, placement.outline step.found, placement.tokens step.rest⟩

def bodyState (state : BodyState) : BodyState :=
  { state with
    enumerators := state.enumerators.map placement.enumerator
    attachedEnd := state.attachedEnd.map (· + placement.lines) }

def body (body : Body) : Body :=
  ⟨body.enumerators.map placement.enumerator, body.closed, placement.tokens body.rest⟩

@[simp] theorem depth_bodyState (state : BodyState) :
    (placement.bodyState state).depth = state.depth := rfl

@[simp] theorem angles_bodyState (state : BodyState) :
    (placement.bodyState state).angles = state.angles := rfl

@[simp] theorem expectsName_bodyState (state : BodyState) :
    (placement.bodyState state).expectsName = state.expectsName := rfl

@[simp] theorem outline_append (first second : Outline) :
    placement.outline (first ++ second) = placement.outline first ++ placement.outline second := by
  change Outline.mk _ _ = Outline.mk _ _
  simp [outline]

@[simp] theorem outline_empty : placement.outline {} = {} := rfl

theorem endLine_doc {block : DocBlock} (h : block ≠ []) :
    (placement.doc block).endLine = block.endLine + placement.lines := by
  have hlast := List.getLast?_eq_some_getLast h
  rw [DocBlock.endLine, DocBlock.endLine, doc, List.getLast?_map, hlast]
  rfl

theorem doc_push (block : DocBlock) (comment : Comment) (line : Nat) :
    placement.doc (block.push comment line) =
      (placement.doc block).push (placement.comment comment) (line + placement.lines) := by
  simp [DocBlock.push, doc, docComment, Placement.comment]

theorem doc_observe (block : DocBlock) (comment : Comment) (line : Nat) :
    (placement.doc block).observe (placement.comment comment) (line + placement.lines) =
      placement.doc (block.observe comment line) := by
  have htrailing : (placement.comment comment).trailing = comment.trailing := rfl
  have hempty : (placement.doc block).isEmpty = block.isEmpty := List.isEmpty_map
  unfold DocBlock.observe
  rw [htrailing, hempty]
  split
  · rfl
  by_cases hblock : block = []
  · subst hblock
    exact (placement.doc_push [] comment line).symm
  · have hgap : (line + placement.lines > block.endLine + placement.lines + 1) ↔
        line > block.endLine + 1 := by omega
    simp only [endLine_doc placement hblock, hgap]
    split
    · exact (placement.doc_push [] comment line).symm
    · exact (placement.doc_push block comment line).symm

@[simp] theorem scope_scopes (stack : ScopeStack) : (placement.scopes stack).scope = stack.scope := by
  simp [ScopeStack.scope, scopes, ← List.map_reverse, List.flatMap_map]

theorem exit_scopes (stack : ScopeStack) :
    (placement.scopes stack).exit = stack.exit.map placement.scopes := by
  cases stack <;> rfl

theorem attaches_bodyState (state : BodyState) (comment : Comment) (line : Nat) :
    (placement.bodyState state).attaches (placement.comment comment) (line + placement.lines) =
      state.attaches comment line := by
  have hline (endLine : Nat) :
      (line + placement.lines = endLine + placement.lines + 1) ↔ line = endLine + 1 := by omega
  unfold BodyState.attaches
  cases hend : state.attachedEnd <;>
    simp [bodyState, Placement.comment, placement.isContinuation_wording, hend, hline]

theorem onComment_bodyState (state : BodyState) (comment : Comment) (line : Nat) :
    (placement.bodyState state).onComment (placement.comment comment) (line + placement.lines) =
      placement.bodyState (state.onComment comment line) := by
  unfold BodyState.onComment
  rw [attaches_bodyState]
  cases hlatest : state.enumerators with
  | nil => simp [bodyState, hlatest]
  | cons latest earlier =>
    simp only [bodyState, hlatest, List.map_cons]
    split
    · simp [enumerator, trailingComment, Placement.comment]
    · simp

theorem onCode_bodyState (state : BodyState) (token : Token) (next : Option Token) :
    (placement.bodyState state).onCode (placement.token token) (next.map placement.token) =
      placement.bodyState (state.onCode token next) := by
  have hopens : (placement.bodyState state).opensTemplate (next.map placement.token) =
      state.opensTemplate next := by
    cases next <;> simp [BodyState.opensTemplate, bodyState]
  unfold BodyState.onCode
  rw [ident?_token, hopens, kind_token]
  generalize state.opensTemplate next = opens
  obtain ⟨enumerators, expectsName, depth, angles, attachedEnd, afterIdent⟩ := state
  cases token.kind with
  | punct c =>
    simp only [Placement.kind]
    -- Brackets, angles and commas change counters, which do not depend on the place.
    split
    case h_7 => cases depth <;> cases expectsName <;> cases opens <;> rfl
    case h_8 => cases depth <;> rfl
    case h_9 => cases depth <;> cases angles <;> rfl
    all_goals first | rfl | contradiction
  | ident name => cases depth <;> cases expectsName <;> rfl
  | _ => rfl

theorem readBody_tokens (state : BodyState) (tokens : List Token) :
    readBody (placement.bodyState state) (placement.tokens tokens) =
      placement.body (readBody state tokens) := by
  have hreverse (state : BodyState) : (placement.bodyState state).enumerators.reverse =
      state.enumerators.reverse.map placement.enumerator := by simp [bodyState]
  fun_induction readBody state tokens with
  | case1 state => simp [readBody, body, hreverse]
  | case2 state token rest comment hcomment ih =>
    rw [tokens_cons, readBody_comment (by rw [comment?_token, hcomment, Option.map_some]),
      position_token, line_position, onComment_bodyState, ih]
  | case3 state token rest hcomment hclosing =>
    obtain ⟨hdepth, hbrace⟩ : state.depth = 0 ∧ token.isPunct '\x7d' = true := by
      simpa using hclosing
    rw [tokens_cons, readBody_close ((placement.depth_bodyState state).trans hdepth)
      (by simp [hcomment]) (by simp [hbrace]), hreverse]
    rfl
  | case4 state token rest hcomment hclosing hsemicolon =>
    obtain ⟨hdepth, hend⟩ : state.depth = 0 ∧ token.isPunct ';' = true := by
      simpa using hsemicolon
    have hbrace : token.isPunct '\x7d' = false := by simpa [hdepth] using hclosing
    rw [tokens_cons, readBody_stop ((placement.depth_bodyState state).trans hdepth)
      (by simp [hcomment]) (by simp [hbrace]) (by simp [hend]), hreverse]
    rfl
  | case5 state token rest hcomment hclosing hsemicolon ih =>
    have hnext : (skipComments (placement.tokens rest)).head? =
        (skipComments rest).head?.map placement.token := by
      rw [skipComments_tokens, Placement.tokens, List.head?_map]
    rw [← ih, ← onCode_bodyState, ← hnext, tokens_cons]
    refine readBody_code (by simp [hcomment]) fun hdepth => ?_
    have hempty : state.depth = 0 := hdepth
    simpa [hempty] using And.intro hclosing hsemicolon

theorem enterBody_tokens (stack : ScopeStack) (segments : Scope) (line : Nat) (tokens : List Token) :
    enterBody (placement.scopes stack) segments (line + placement.lines) (placement.tokens tokens) =
      placement.step (enterBody stack segments line tokens) := by
  unfold enterBody
  rw [afterOpenBrace?_tokens]
  cases afterOpenBrace? tokens <;> rfl

theorem readNamespace_tokens (stack : ScopeStack) (line : Nat) (rest : List Token) :
    readNamespace (placement.scopes stack) (line + placement.lines) (placement.tokens rest) =
      placement.step (readNamespace stack line rest) := by
  rw [readNamespace_eq_enterBody, namespaceScope, namespaceBody, skipComments_tokens,
    namespaceName_tokens]
  exact placement.enterBody_tokens ..

theorem readType_tokens (stack : ScopeStack) (line : Nat) (rest : List Token) :
    readType (placement.scopes stack) (line + placement.lines) (placement.tokens rest) =
      placement.step (readType stack line rest) := by
  rw [readType_eq_enterBody, typeScope, typeBody, skipComments_tokens, skipAttributes_tokens,
    qualifiedName_tokens]
  dsimp only
  rw [skipWord_tokens, skipBaseClause_tokens]
  exact placement.enterBody_tokens ..

theorem readEnumKey_tokens (tokens : List Token) :
    readEnumKey (placement.tokens tokens) =
      ((readEnumKey tokens).1, placement.tokens (readEnumKey tokens).2) := by
  cases tokens with
  | nil => rfl
  | cons token rest =>
    simp only [tokens_cons, readEnumKey, isIdent_token, skipComments_tokens]
    split <;> rfl

theorem readAlias_tokens (tokens : List Token) :
    readAlias (placement.tokens tokens) =
      ((readAlias tokens).1, placement.tokens (readAlias tokens).2) := by
  unfold readAlias
  rw [skipComments_tokens]
  cases skipComments tokens with
  | nil => rfl
  | cons token rest =>
    simp only [tokens_cons, ident?_token]
    cases token.ident? <;> rfl

theorem nameBehind_tokens (isTypedef : Bool) (name : Option String) (body : Body) :
    nameBehind isTypedef name (placement.body body) =
      ((nameBehind isTypedef name body).1, placement.tokens (nameBehind isTypedef name body).2) := by
  have hclosed : (placement.body body).closed = body.closed := rfl
  have hrest : (placement.body body).rest = placement.tokens body.rest := rfl
  rw [nameBehind, nameBehind, hclosed, hrest, readAlias_tokens]
  split <;> rfl

theorem enterEnum_tokens (state : ScanState) (position : Position) (isTypedef isScoped : Bool)
    (names : List String) (tokens : List Token) :
    enterEnum (placement.state state) (placement.position position) isTypedef isScoped names
        (placement.tokens tokens) =
      placement.step (enterEnum state position isTypedef isScoped names tokens) := by
  cases tokens with
  | nil => rfl
  | cons brace inside =>
    have hbody : readBody {} (placement.tokens inside) = placement.body (readBody {} inside) :=
      placement.readBody_tokens {} inside
    have hscope : (placement.state state).scopes.scope = state.scopes.scope :=
      placement.scope_scopes state.scopes
    simp only [tokens_cons, enterEnum, isPunct_token, hbody]
    split
    · generalize readBody {} inside = body
      rw [enumOf, nameBehind_tokens, hscope]
      obtain ⟨enumerators, closed, left⟩ := body
      cases closed <;> rfl
    · rfl

theorem readEnum_tokens (state : ScanState) (position : Position) (isTypedef : Bool)
    (rest : List Token) :
    readEnum (placement.state state) (placement.position position) isTypedef (placement.tokens rest) =
      placement.step (readEnum state position isTypedef rest) := by
  rw [readEnum_eq_enterEnum, enumNames, enumBody, skipComments_tokens, readEnumKey_tokens]
  dsimp only
  rw [skipAttributes_tokens, qualifiedName_tokens]
  dsimp only
  rw [skipBaseClause_tokens]
  exact placement.enterEnum_tokens ..

theorem step_tokens (state : ScanState) (token : Token) (rest : List Token) :
    Scan.step (placement.state state) (placement.token token) (placement.tokens rest) =
      placement.step (Scan.step state token rest) := by
  obtain ⟨kind, position⟩ := token
  cases kind with
  | comment comment =>
    simp only [Scan.step, Placement.token, Placement.kind, Placement.step, line_position]
    rw [show (placement.state state).doc = placement.doc state.doc from rfl, doc_observe]
    rfl
  | ident word =>
    simp only [Scan.step, Placement.token, Placement.kind, line_position]
    split
    · exact placement.readNamespace_tokens ..
    split
    · exact placement.readType_tokens ..
    split
    · exact placement.readEnum_tokens ..
    split
    · rw [skipComments_tokens]
      cases skipComments rest with
      | nil => rfl
      | cons next after =>
        simp only [tokens_cons, isIdent_token]
        split
        · exact placement.readEnum_tokens ..
        · rfl
    · rfl
  | punct c =>
    simp only [Scan.step, Placement.token, Placement.kind]
    split
    case h_4 =>
      rw [show (placement.state state).scopes = placement.scopes state.scopes from rfl, exit_scopes]
      cases state.scopes.exit <;> rfl
    all_goals first | rfl | contradiction
  | _ => rfl

theorem position_of_lines (h : placement.lines = 0) (position : Position) :
    placement.position position = position := by
  simp [Placement.position, h]

theorem scopes_of_lines (h : placement.lines = 0) (stack : ScopeStack) :
    placement.scopes stack = stack := by
  simp [scopes, h]

theorem diagnostics_outline_of_lines (h : placement.lines = 0) (outline : Outline) :
    (placement.outline outline).diagnostics = outline.diagnostics := by
  have hsame (diagnostic : Diagnostic) : placement.diagnostic diagnostic = diagnostic := by
    rw [Placement.diagnostic, placement.position_of_lines h]
  exact (List.map_congr_left fun diagnostic _ => hsame diagnostic).trans (List.map_id _)

/-- The enums of placed code are the placed enums of the code. -/
theorem enums_scanFrom_tokens (final other : Position) (state : ScanState) (tokens : List Token) :
    (scanFrom other (placement.state state) (placement.tokens tokens)).enums =
      (scanFrom final state tokens).enums.map placement.rawEnum := by
  fun_induction scanFrom final state tokens with
  | case1 state hfinish =>
    rw [tokens_nil, scanFrom]
    split <;> rfl
  | case2 state error hfinish =>
    rw [tokens_nil, scanFrom]
    split <;> rfl
  | case3 state token rest result =>
    rename_i ih
    rw [tokens_cons, scanFrom, step_tokens, Outline.enums_append, Outline.enums_append,
      List.map_append, ← ih]
    rfl

/-- Where no line changes, placed code has the same diagnostics. -/
theorem diagnostics_scanFrom_tokens (h : placement.lines = 0) (final : Position) (state : ScanState)
    (tokens : List Token) :
    (scanFrom final (placement.state state) (placement.tokens tokens)).diagnostics =
      (scanFrom final state tokens).diagnostics := by
  have hscopes (state : ScanState) : (placement.state state).scopes = state.scopes :=
    placement.scopes_of_lines h state.scopes
  fun_induction scanFrom final state tokens with
  | case1 state hfinish => rw [tokens_nil, scanFrom, hscopes, hfinish]
  | case2 state error hfinish => rw [tokens_nil, scanFrom, hscopes, hfinish]
  | case3 state token rest result =>
    rename_i ih
    rw [tokens_cons, scanFrom, step_tokens, Outline.diagnostics_append, Outline.diagnostics_append,
      ← ih, ← placement.diagnostics_outline_of_lines h result.found]
    rfl

theorem enums_scanTokens_tokens (tokens : List Token) :
    (scanTokens (placement.tokens tokens)).enums =
      (scanTokens tokens).enums.map placement.rawEnum :=
  placement.enums_scanFrom_tokens _ _ {} tokens

theorem diagnostics_scanTokens_tokens (h : placement.lines = 0) (tokens : List Token) :
    (scanTokens (placement.tokens tokens)).diagnostics = (scanTokens tokens).diagnostics := by
  have hfinal : (placement.tokens tokens).getLast?.map (·.position) =
      tokens.getLast?.map (·.position) := by
    rw [Placement.tokens, List.getLast?_map, Option.map_map]
    simp [Function.comp_def, placement.position_of_lines h]
  unfold scanTokens
  rw [hfinal]
  exact placement.diagnostics_scanFrom_tokens h _ {} tokens

end Placement

end EnumConverter
