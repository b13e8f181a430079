import EnumConverter.Proofs.Indexed.Body
import EnumConverter.Proofs.Indexed.Lexer
import EnumConverter.Proofs.Scan.Step

namespace EnumConverter.Scan

open Source

/-- The result of reading some tokens: the state afterwards, what was found, and the index of the next
token. -/
structure StepAt where
  state : ScanState
  found : Outline := {}
  index : Nat

/-- The result of reading with the index of what is left. -/
def Step.indexed (tokens : List Token) (result : Step) : StepAt :=
  ⟨result.state, result.found, offset tokens result.rest⟩

section Readers

variable (tokens : List Token)

/-- Opens a scope, if an opening brace stands here. Else reading goes on here, but not in front of
`floor`. -/
def enterAt (floor : Nat) (scopes : ScopeStack) (segments : Scope) (line : Nat) :
    Option Nat → Checked StepAt
  | none => .ok { state := { scopes }, index := tokens.length }
  | some index => do
    let token ← Checked.item tokens index
    if token.isPunct '\x7b' then
      .ok { state := { scopes := scopes.enter segments line }, index := index + 1 }
    else .ok { state := { scopes }, index := max index floor }

/-- Reads a namespace whose keyword stands at an index. -/
def namespaceAt (scopes : ScopeStack) (line index : Nat) : Checked StepAt := do
  let start ← nextCode tokens (index + 1)
  let (names, behind) ← namespaceNameAt tokens [] start
  enterAt tokens 0 scopes (names.map (⟨·, .namespaceScope⟩)) line behind

/-- Reads a class, a struct or a union whose keyword stands at an index. -/
def typeAt (scopes : ScopeStack) (line index : Nat) : Checked StepAt := do
  let start ← nextCode tokens (index + 1)
  let start ← skipAttributesFrom tokens start
  let (names, behind) ← qualifiedNameAt tokens [] start
  let behind ← skipWordAt tokens "final" behind
  let behind ← skipBaseClauseAt tokens behind
  enterAt tokens (index + 1) scopes (names.map (⟨·, .typeScope⟩)) line behind

/-- Reads `class` or `struct` behind `enum`. -/
def enumKeyAt : Option Nat → Checked (Bool × Option Nat)
  | none => .ok (false, none)
  | some index => do
    let token ← Checked.item tokens index
    if token.isIdent "class" || token.isIdent "struct" then
      Prod.mk true <$> nextCode tokens (index + 1)
    else .ok (false, some index)

/-- The name that a `typedef` gives an unnamed enum whose body ends at an index. -/
def aliasAt (index : Nat) : Checked (Option String × Nat) := do
  match ← nextCode tokens index with
  | none => .ok (none, index)
  | some next => do
    let token ← Checked.item tokens next
    match token.ident? with
    | some name => .ok (some name, next + 1)
    | none => .ok (none, index)

/-- Reads the body of the enum `names` whose opening brace stands at an index, and the name that a
`typedef` gives it. -/
def definitionAt (state : ScanState) (position : Position) (isTypedef isScoped : Bool)
    (names : List String) (index : Nat) (brace : Token) : Checked StepAt := do
  let (enumerators, closed, stop) ← bodyAt tokens {} (index + 1)
  let problems : Outline :=
    if closed then {}
    else .unbalanced brace.position
      ("body of enum '" ++ displayName names.getLast? ++ "' is never closed")
  let (name, stop) ←
    if isTypedef && names.getLast?.isNone && closed then aliasAt tokens stop
    else .ok (names.getLast?, stop)
  let definition : RawEnum :=
    { name
      scope := state.scopes.scope ++ names.dropLast.map (⟨·, .typeScope⟩)
      isScoped
      position
      doc := state.doc
      enumerators
      closed }
  .ok
    { state := { state with doc := [] }
      found := problems ++ { enums := [definition] }
      index := stop }

/-- Reads an enum whose keyword stands at an index. -/
def enumAt (state : ScanState) (isTypedef : Bool) (keyword : Nat) : Checked StepAt := do
  let token ← Checked.item tokens keyword
  let start ← nextCode tokens (keyword + 1)
  let (isScoped, start) ← enumKeyAt tokens start
  let start ← skipAttributesFrom tokens start
  let (names, behind) ← qualifiedNameAt tokens [] start
  match ← skipBaseClauseAt tokens behind with
  | none => .ok { state := { state with doc := [] }, index := max tokens.length (keyword + 1) }
  | some index => do
    let brace ← Checked.item tokens index
    if brace.isPunct '\x7b' then
      definitionAt tokens state token.position isTypedef isScoped names index brace
    else .ok { state := { state with doc := [] }, index := max index (keyword + 1) }

/-- Reads from the token at an index on, as far as it takes to know what it opens. -/
def stepAt (state : ScanState) (index : Nat) (token : Token) : Checked StepAt :=
  let skipped : StepAt := { state := { state with doc := [] }, index := index + 1 }
  match token.kind with
  | .comment comment =>
    .ok { state := { state with doc := state.doc.observe comment token.position.line }
          index := index + 1 }
  | .ident word =>
    if word = "namespace" then namespaceAt tokens state.scopes token.position.line index
    else if word ∈ typeWords then typeAt tokens state.scopes token.position.line index
    else if word = "enum" then enumAt tokens state false index
    else if word = "typedef" then do
      match ← nextCode tokens (index + 1) with
      | none => .ok skipped
      | some next => do
        if (← Checked.item tokens next).isIdent "enum" then enumAt tokens state true next
        else .ok skipped
    else .ok skipped
  | .punct '\x7b' =>
    .ok { state := { scopes := state.scopes.enter [] token.position.line }, index := index + 1 }
  | .punct '\x7d' =>
    match state.scopes.exit with
    | .ok scopes => .ok { state := { scopes }, index := index + 1 }
    | .error error => .ok { skipped with found := .unbalanced token.position error.message }
  | _ => .ok skipped

/-- One step, which finds what it finds behind what was found before. -/
def scanRound (read : ScanState × Outline) (index : Nat) (token : Token) :
    Checked (Round (ScanState × Outline) Outline) := do
  let result ← stepAt tokens read.1 index token
  .ok (.next (result.state, read.2 ++ result.found) result.index)

/-- Reads all tokens from an index on, and reports at `final` braces that are still open. -/
def scanAt (final : Position) : ScanState × Outline → Nat → Checked Outline :=
  loop tokens
    (fun read _ => match read.1.scopes.finish with
      | .ok () => .ok read.2
      | .error error => .ok (read.2 ++ .unbalanced final error.message))
    (scanRound tokens)

end Readers

variable {tokens rest : List Token} {token : Token}

theorem enterAt_cursor? {floor : Nat} (scopes : ScopeStack) (segments : Scope) (line : Nat)
    (h : rest <:+ tokens) (hfloor : floor ≤ offset tokens rest) :
    enterAt tokens floor scopes segments line (cursor? tokens rest) =
      .ok ((enterBody scopes segments line rest).indexed tokens) := by
  cases rest with
  | nil => rfl
  | cons token rest =>
    simp only [cursor?_cons, enterAt, item_offset h, Checked.ok_bind, enterBody, afterOpenBrace?]
    by_cases hbrace : token.isPunct '\x7b'
    · simp [hbrace, offset_cons h, Step.indexed]
    · simp [hbrace, Nat.max_eq_left hfloor, Step.indexed]

theorem namespaceAt_offset (scopes : ScopeStack) (line : Nat) (h : token :: rest <:+ tokens) :
    namespaceAt tokens scopes line (offset tokens (token :: rest)) =
      .ok ((readNamespace scopes line rest).indexed tokens) := by
  have hrest := (List.suffix_cons token rest).trans h
  have hskip := (skipComments_suffix rest).trans hrest
  have hname := (namespaceName_suffix _).trans hskip
  simp only [namespaceAt, offset_cons h, nextCode_offset hrest, Checked.ok_bind,
    namespaceNameAt_cursor? [] hskip, List.nil_append]
  exact enterAt_cursor? _ _ _ hname (Nat.zero_le _)

/-- The index of what is left behind a token is behind the index of the token. -/
theorem succ_le_offset {left : List Token} (h : token :: rest <:+ tokens) (hleft : left <:+ rest) :
    offset tokens (token :: rest) + 1 ≤ offset tokens left :=
  offset_lt_offset h (Nat.lt_succ_of_le hleft.length_le)

theorem typeAt_offset (scopes : ScopeStack) (line : Nat) (h : token :: rest <:+ tokens) :
    typeAt tokens scopes line (offset tokens (token :: rest)) =
      .ok ((readType scopes line rest).indexed tokens) := by
  have hrest := (List.suffix_cons token rest).trans h
  have hskip := skipComments_suffix rest
  have hattributes := (skipAttributes_suffix _).trans hskip
  have hname := (qualifiedName_suffix _).trans hattributes
  have hfinal := (skipWord_suffix "final" _).trans hname
  have hbase := (skipBaseClause_suffix _).trans hfinal
  simp only [typeAt, offset_cons h, nextCode_offset hrest, Checked.ok_bind, List.nil_append,
    skipAttributesFrom_cursor? (hskip.trans hrest),
    qualifiedNameAt_cursor? [] (hattributes.trans hrest),
    skipWordAt_cursor? "final" (hname.trans hrest), skipBaseClauseAt_cursor? (hfinal.trans hrest)]
  rw [← offset_cons h]
  exact enterAt_cursor? _ _ _ (hbase.trans hrest) (succ_le_offset h hbase)

theorem enumKeyAt_cursor? (h : rest <:+ tokens) :
    enumKeyAt tokens (cursor? tokens rest) =
      .ok ((readEnumKey rest).1, cursor? tokens (readEnumKey rest).2) := by
  cases rest with
  | nil => rfl
  | cons token rest =>
    simp only [cursor?_cons, enumKeyAt, item_offset h, Checked.ok_bind, readEnumKey]
    split
    · rw [offset_cons h, nextCode_offset ((List.suffix_cons ..).trans h)]
      rfl
    · rfl

theorem aliasAt_offset (h : rest <:+ tokens) :
    aliasAt tokens (offset tokens rest) =
      .ok ((readAlias rest).1, offset tokens (readAlias rest).2) := by
  have hskip := (skipComments_suffix rest).trans h
  rw [aliasAt, nextCode_offset h, readAlias]
  cases hnext : skipComments rest with
  | nil => rfl
  | cons next after =>
    rw [hnext] at hskip
    simp only [cursor?_cons, Checked.ok_bind, item_offset hskip]
    cases next.ident? with
    | none => rfl
    | some name => rw [offset_cons hskip]

theorem enumAt_offset (state : ScanState) (isTypedef : Bool) (h : token :: rest <:+ tokens) :
    enumAt tokens state isTypedef (offset tokens (token :: rest)) =
      .ok ((readEnum state token.position isTypedef rest).indexed tokens) := by
  have hrest := (List.suffix_cons token rest).trans h
  have hskip := skipComments_suffix rest
  have hkey := (readEnumKey_suffix _).trans hskip
  have hattributes := (skipAttributes_suffix _).trans hkey
  have hname := (qualifiedName_suffix _).trans hattributes
  have hbase := (skipBaseClause_suffix _).trans hname
  simp only [enumAt, item_offset h, Checked.ok_bind, offset_cons h, nextCode_offset hrest,
    enumKeyAt_cursor? (hskip.trans hrest), skipAttributesFrom_cursor? (hkey.trans hrest),
    qualifiedNameAt_cursor? [] (hattributes.trans hrest), List.nil_append,
    skipBaseClauseAt_cursor? (hname.trans hrest), readEnum]
  have hfloor := succ_le_offset h hbase
  have hbrace := hbase.trans hrest
  rw [offset_cons h] at hfloor
  generalize skipBaseClause (qualifiedName (skipAttributes (readEnumKey (skipComments rest)).2)).2 =
    behind at hfloor hbrace
  cases behind with
  | nil =>
    rw [cursor?_nil, ← offset_nil tokens]
    simp only [Nat.max_eq_left hfloor]
    rfl
  | cons brace inside =>
    simp only [cursor?_cons, item_offset hbrace, Checked.ok_bind]
    split
    · rename_i hopen
      have hinside := (List.suffix_cons brace inside).trans hbrace
      have hbody := (rest_readBody_suffix {} inside).trans hinside
      simp only [definitionAt, offset_cons hbrace, Checked.ok_bind,
        bodyAt_offset {} hinside (behindIdent_of_punct hbrace hopen).symm]
      split
      · rw [aliasAt_offset hbody]
        rfl
      · rfl
    · rw [Nat.max_eq_left hfloor]
      rfl

theorem stepAt_offset (state : ScanState) (h : token :: rest <:+ tokens) :
    stepAt tokens state (offset tokens (token :: rest)) token =
      .ok ((step state token rest).indexed tokens) := by
  have hrest := (List.suffix_cons token rest).trans h
  obtain ⟨kind, position⟩ := token
  cases kind with
  | comment comment => simp [stepAt, step, offset_cons h, Step.indexed]
  | ident word =>
    simp only [stepAt, step]
    split
    · exact namespaceAt_offset _ _ h
    split
    · exact typeAt_offset _ _ h
    split
    · exact enumAt_offset _ _ h
    split
    · rw [offset_cons h, nextCode_offset hrest]
      have hskip := (skipComments_suffix rest).trans hrest
      cases hnext : skipComments rest with
      | nil => rfl
      | cons next after =>
        rw [hnext] at hskip
        simp only [cursor?_cons, Checked.ok_bind, item_offset hskip]
        split
        · exact enumAt_offset _ _ hskip
        · rfl
    · rw [offset_cons h]
      rfl
  | punct c =>
    by_cases hopen : c = '\x7b'
    · subst hopen
      simp [stepAt, step, offset_cons h, Step.indexed]
    by_cases hclose : c = '\x7d'
    · subst hclose
      simp only [stepAt, step]
      cases state.scopes.exit <;> simp [offset_cons h, Step.indexed]
    · simp [stepAt, step, hopen, hclose, offset_cons h, Step.indexed]
  | _ => simp [stepAt, step, offset_cons h, Step.indexed]

theorem scanAt_offset (final : Position) (state : ScanState) (found : Outline) (h : rest <:+ tokens) :
    scanAt tokens final (state, found) (offset tokens rest) =
      .ok (found ++ scanFrom final state rest) := by
  fun_induction scanFrom final state rest generalizing found with
  | case1 state hfinish =>
    refine loop_nil.trans ?_
    simp only [hfinish, Outline.append_empty]
  | case2 state error hfinish =>
    refine loop_nil.trans ?_
    simp only [hfinish]
  | case3 state token rest result ih =>
    have hleft := step_suffix state token rest
    have hround : scanRound tokens (state, found) (offset tokens (token :: rest)) token =
        .ok (.next (result.state, found ++ result.found) (offset tokens result.rest)) := by
      rw [scanRound, stepAt_offset state h]
      rfl
    rw [← Outline.append_assoc]
    exact (loop_next h hleft hround).trans (ih _ (hleft.trans ((List.suffix_cons ..).trans h)))

/-- The outline of a source text, by index. -/
def scanTextAt (source : String) : Checked Outline := do
  let tokens ← tokenizeAt source
  scanAt tokens ((tokens.getLast?.map (·.position)).getD .start) ({}, {}) 0

theorem scanTextAt_eq (source : String) : scanTextAt source = .ok (scan source) := by
  have hscan := scanAt_offset (((tokenize source).getLast?.map (·.position)).getD .start) {} {}
    (List.suffix_refl (tokenize source))
  rw [offset_self, Outline.empty_append] at hscan
  rw [scanTextAt, tokenizeAt_eq, Checked.ok_bind, hscan, scan, scanTokens]

end EnumConverter.Scan
