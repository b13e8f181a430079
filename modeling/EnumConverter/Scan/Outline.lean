import EnumConverter.Diagnostic
import EnumConverter.Scan.Body
import EnumConverter.Scan.ScopeStack

namespace EnumConverter.Scan

open Source

/-- What is found in a text: its enum definitions and what is wrong with its braces, each in order. -/
structure Outline where
  enums : List RawEnum := []
  diagnostics : List Diagnostic := []
deriving DecidableEq, Repr

namespace Outline

/-- What is found in two texts, the second behind the first. -/
def append (first second : Outline) : Outline :=
  ⟨first.enums ++ second.enums, first.diagnostics ++ second.diagnostics⟩

instance : Append Outline := ⟨append⟩

@[simp] theorem enums_append (first second : Outline) :
    (first ++ second).enums = first.enums ++ second.enums := rfl

@[simp] theorem diagnostics_append (first second : Outline) :
    (first ++ second).diagnostics = first.diagnostics ++ second.diagnostics := rfl

@[simp] theorem empty_append (outline : Outline) : ({} : Outline) ++ outline = outline := rfl

@[simp] theorem append_empty (outline : Outline) : outline ++ ({} : Outline) = outline := by
  change Outline.mk _ _ = outline
  simp

theorem append_assoc (first second third : Outline) :
    first ++ second ++ third = first ++ (second ++ third) := by
  change Outline.mk _ _ = Outline.mk _ _
  simp

/-- The outline that holds nothing but a problem with braces. -/
def unbalanced (position : Position) (message : String) : Outline :=
  { diagnostics := [{ kind := .unbalancedScope, message, position }] }

end Outline

/-- What the tokens so far leave to remember. -/
structure ScanState where
  /-- The open braces. -/
  scopes : ScopeStack := []
  /-- The comments since the last token that is none, as far as they are one block. -/
  doc : DocBlock := []
deriving DecidableEq, Repr

/-- The result of reading some tokens: the state afterwards, what was found, and the tokens left. -/
structure Step where
  state : ScanState
  found : Outline := {}
  rest : List Token

/-- The name of an enum in messages. -/
def displayName (name : Option String) : String :=
  name.getD "<anonymous>"

/-- Reads a namespace behind its keyword, which stands on `line`. An alias opens no scope. -/
def readNamespace (scopes : ScopeStack) (line : Nat) (rest : List Token) : Step :=
  let (names, after) := namespaceName (skipComments rest)
  match afterOpenBrace? after with
  | some body =>
    { state := { scopes := scopes.enter (names.map (⟨·, .namespaceScope⟩)) line }, rest := body }
  | none => { state := { scopes }, rest := after }

/-- Reads a class, a struct or a union behind its keyword, which stands on `line`. Only a definition
opens a scope. -/
def readType (scopes : ScopeStack) (line : Nat) (rest : List Token) : Step :=
  let (names, afterName) := qualifiedName (skipAttributes (skipComments rest))
  let after := skipBaseClause (skipWord "final" afterName)
  match afterOpenBrace? after with
  | some body =>
    { state := { scopes := scopes.enter (names.map (⟨·, .typeScope⟩)) line }, rest := body }
  | none => { state := { scopes }, rest := after }

/-- Reads `class` or `struct` behind `enum`: whether one is there, and the tokens behind it. -/
def readEnumKey (tokens : List Token) : Bool × List Token :=
  match tokens with
  | [] => (false, [])
  | token :: rest =>
    if token.isIdent "class" || token.isIdent "struct" then (true, skipComments rest)
    else (false, token :: rest)

/-- The name that a `typedef` gives an unnamed enum, right behind its body. -/
def readAlias (tokens : List Token) : Option String × List Token :=
  match skipComments tokens with
  | [] => (none, tokens)
  | token :: rest =>
    match token.ident? with
    | some name => (some name, rest)
    | none => (none, tokens)

/-- Reads an enum behind its keyword, which stands at `position`. A declaration without a body defines
nothing. -/
def readEnum (state : ScanState) (position : Position) (isTypedef : Bool) (rest : List Token) : Step :=
  let (isScoped, afterKey) := readEnumKey (skipComments rest)
  let (names, afterName) := qualifiedName (skipAttributes afterKey)
  match skipBaseClause afterName with
  | [] => { state := { state with doc := [] }, rest := [] }
  | brace :: inside =>
    if brace.isPunct '\x7b' then
      let body := readBody {} inside
      let name := names.getLast?
      let problems : Outline :=
        if body.closed then {}
        else .unbalanced brace.position
          ("body of enum '" ++ displayName name ++ "' is never closed")
      let (name, after) :=
        if isTypedef && name.isNone && body.closed then readAlias body.rest else (name, body.rest)
      let definition : RawEnum :=
        { name
          scope := state.scopes.scope ++ names.dropLast.map (⟨·, .typeScope⟩)
          isScoped
          position
          doc := state.doc
          enumerators := body.enumerators
          closed := body.closed }
      { state := { state with doc := [] }
        found := problems ++ { enums := [definition] }
        rest := after }
    else { state := { state with doc := [] }, rest := brace :: inside }

/-- Words that open the definition of a type. -/
def typeWords : List String := ["class", "struct", "union"]

/-- Reads from a token on, as far as it takes to know what it opens. -/
def step (state : ScanState) (token : Token) (rest : List Token) : Step :=
  let skipped : Step := { state := { state with doc := [] }, rest }
  match token.kind with
  | .comment comment =>
    { state := { state with doc := state.doc.observe comment token.position.line }, rest }
  | .ident word =>
    if word = "namespace" then readNamespace state.scopes token.position.line rest
    else if word ∈ typeWords then readType state.scopes token.position.line rest
    else if word = "enum" then readEnum state token.position false rest
    else if word = "typedef" then
      match skipComments rest with
      | [] => skipped
      | next :: after =>
        if next.isIdent "enum" then readEnum state next.position true after else skipped
    else skipped
  | .punct '\x7b' => { state := { scopes := state.scopes.enter [] token.position.line }, rest }
  | .punct '\x7d' =>
    match state.scopes.exit with
    | .ok scopes => { state := { scopes }, rest }
    | .error error => { skipped with found := .unbalanced token.position error.message }
  | _ => skipped

theorem readNamespace_suffix (scopes : ScopeStack) (line : Nat) (rest : List Token) :
    (readNamespace scopes line rest).rest <:+ rest := by
  have hname := (namespaceName_suffix (skipComments rest)).trans (skipComments_suffix rest)
  unfold readNamespace
  dsimp only
  split
  · exact (afterOpenBrace?_suffix (by assumption)).trans hname
  · exact hname

theorem readType_suffix (scopes : ScopeStack) (line : Nat) (rest : List Token) :
    (readType scopes line rest).rest <:+ rest := by
  have hname := (qualifiedName_suffix (skipAttributes (skipComments rest))).trans
    ((skipAttributes_suffix _).trans (skipComments_suffix rest))
  have hbase := (skipBaseClause_suffix _).trans ((skipWord_suffix "final" _).trans hname)
  unfold readType
  dsimp only
  split
  · exact (afterOpenBrace?_suffix (by assumption)).trans hbase
  · exact hbase

theorem readEnumKey_suffix (tokens : List Token) : (readEnumKey tokens).2 <:+ tokens := by
  unfold readEnumKey
  split
  · exact List.suffix_rfl
  · split
    · exact (skipComments_suffix _).trans (List.suffix_cons ..)
    · exact List.suffix_rfl

theorem readAlias_suffix (tokens : List Token) : (readAlias tokens).2 <:+ tokens := by
  have hskip := skipComments_suffix tokens
  unfold readAlias
  split
  · exact List.suffix_rfl
  · rename_i htokens
    rw [htokens] at hskip
    split
    · exact (List.suffix_cons ..).trans hskip
    · exact List.suffix_rfl

theorem readEnum_suffix (state : ScanState) (position : Position) (isTypedef : Bool)
    (rest : List Token) : (readEnum state position isTypedef rest).rest <:+ rest := by
  have hkey := (readEnumKey_suffix (skipComments rest)).trans (skipComments_suffix rest)
  have hname := (qualifiedName_suffix _).trans ((skipAttributes_suffix _).trans hkey)
  have hbase := (skipBaseClause_suffix _).trans hname
  unfold readEnum
  dsimp only
  split
  · exact List.nil_suffix
  · rename_i brace inside hinside
    rw [hinside] at hbase
    have hbody := (rest_readBody_suffix {} inside).trans ((List.suffix_cons ..).trans hbase)
    split
    · dsimp only
      split
      · exact (readAlias_suffix _).trans hbody
      · exact hbody
    · exact hbase

/-- Reading goes forward: what is left behind a token is a final part of what stood there. -/
theorem step_suffix (state : ScanState) (token : Token) (rest : List Token) :
    (step state token rest).rest <:+ rest := by
  unfold step
  dsimp only
  split
  · exact List.suffix_rfl
  · split
    · exact readNamespace_suffix ..
    split
    · exact readType_suffix ..
    split
    · exact readEnum_suffix ..
    split
    · split
      · exact List.suffix_rfl
      · rename_i next after hnext
        have hskip := skipComments_suffix rest
        rw [hnext] at hskip
        split
        · exact (readEnum_suffix ..).trans ((List.suffix_cons ..).trans hskip)
        · exact List.suffix_rfl
    · exact List.suffix_rfl
  · exact List.suffix_rfl
  · split <;> exact List.suffix_rfl
  · exact List.suffix_rfl

/-- Reads all tokens that are left, and reports at `final` braces that are still open. -/
def scanFrom (final : Position) (state : ScanState) : List Token → Outline
  | [] =>
    match state.scopes.finish with
    | .ok () => {}
    | .error error => .unbalanced final error.message
  | token :: rest =>
    let result := step state token rest
    result.found ++ scanFrom final result.state result.rest
termination_by tokens => tokens.length
decreasing_by exact Nat.lt_succ_of_le (step_suffix state token rest).length_le

/-- Reads a list of tokens from the global scope. -/
def scanTokens (tokens : List Token) : Outline :=
  scanFrom ((tokens.getLast?.map (·.position)).getD .start) {} tokens

/-- The outline of a source text. -/
def scan (source : String) : Outline :=
  scanTokens (tokenize source)

end EnumConverter.Scan
