import EnumConverter.Scan.Outline

namespace EnumConverter

open Source

theorem Source.Token.eq_of_isIdent {token : Token} {word : String}
    (h : token.isIdent word = true) : token = ⟨.ident word, token.position⟩ := by
  obtain ⟨kind, position⟩ := token
  obtain rfl : kind = .ident word := of_decide_eq_true h
  rfl

theorem Source.Token.ident?_of_isIdent {token : Token} {word : String}
    (h : token.isIdent word = true) : token.ident? = some word := by
  rw [Token.eq_of_isIdent h]
  rfl

namespace Scan

/-- Enters the scope of a body, if the tokens start with one. -/
def enterBody (scopes : ScopeStack) (segments : Scope) (line : Nat) (tokens : List Token) : Step :=
  match afterOpenBrace? tokens with
  | some body => { state := { scopes := scopes.enter segments line }, rest := body }
  | none => { state := { scopes }, rest := tokens }

/-- A body is entered, or nothing is. -/
theorem enterBody_cases (scopes : ScopeStack) (segments : Scope) (line : Nat) (tokens : List Token) :
    (∃ body, afterOpenBrace? tokens = some body ∧ enterBody scopes segments line tokens =
      { state := { scopes := scopes.enter segments line }, rest := body }) ∨
    enterBody scopes segments line tokens = { state := { scopes }, rest := tokens } := by
  unfold enterBody
  cases hbody : afterOpenBrace? tokens with
  | none => exact .inr rfl
  | some body => exact .inl ⟨body, rfl, rfl⟩

@[simp] theorem found_enterBody (scopes : ScopeStack) (segments : Scope) (line : Nat)
    (tokens : List Token) : (enterBody scopes segments line tokens).found = {} := by
  obtain ⟨body, -, h⟩ | h := enterBody_cases scopes segments line tokens <;> rw [h]

@[simp] theorem doc_enterBody (scopes : ScopeStack) (segments : Scope) (line : Nat)
    (tokens : List Token) : (enterBody scopes segments line tokens).state.doc = [] := by
  obtain ⟨body, -, h⟩ | h := enterBody_cases scopes segments line tokens <;> rw [h]

/-- The tokens behind the name of a namespace, where `after` stands behind its keyword. -/
def namespaceBody (after : List Token) : List Token :=
  (namespaceName (skipComments after)).2

/-- The scope that a namespace brings, where `after` stands behind its keyword. -/
def namespaceScope (after : List Token) : Scope :=
  (namespaceName (skipComments after)).1.map (⟨·, .namespaceScope⟩)

theorem readNamespace_eq_enterBody (scopes : ScopeStack) (line : Nat) (rest : List Token) :
    readNamespace scopes line rest =
      enterBody scopes (namespaceScope rest) line (namespaceBody rest) := rfl

@[simp] theorem readNamespace_found (scopes : ScopeStack) (line : Nat) (rest : List Token) :
    (readNamespace scopes line rest).found = {} :=
  found_enterBody ..

/-- The tokens behind the name and the bases of a type, where `after` stands behind its keyword. -/
def typeBody (after : List Token) : List Token :=
  skipBaseClause (skipWord "final" (qualifiedName (skipAttributes (skipComments after))).2)

/-- The scope that a type brings, where `after` stands behind its keyword. -/
def typeScope (after : List Token) : Scope :=
  (qualifiedName (skipAttributes (skipComments after))).1.map (⟨·, .typeScope⟩)

theorem readType_eq_enterBody (scopes : ScopeStack) (line : Nat) (rest : List Token) :
    readType scopes line rest = enterBody scopes (typeScope rest) line (typeBody rest) := rfl

@[simp] theorem readType_found (scopes : ScopeStack) (line : Nat) (rest : List Token) :
    (readType scopes line rest).found = {} :=
  found_enterBody ..

/-- The parts of the name of an enum, where `after` stands behind its keyword. -/
def enumNames (after : List Token) : List String :=
  (qualifiedName (skipAttributes (readEnumKey (skipComments after)).2)).1

/-- The tokens from the opening brace of an enum on, if it has a body, where `after` stands behind its
keyword. -/
def enumBody (after : List Token) : List Token :=
  skipBaseClause (qualifiedName (skipAttributes (readEnumKey (skipComments after)).2)).2

theorem enumName_suffix (after : List Token) :
    skipAttributes (readEnumKey (skipComments after)).2 <:+ after :=
  (skipAttributes_suffix _).trans ((readEnumKey_suffix _).trans (skipComments_suffix after))

theorem enumBody_suffix (after : List Token) : enumBody after <:+ after :=
  (skipBaseClause_suffix _).trans ((qualifiedName_suffix _).trans (enumName_suffix after))

/-- What is wrong with the body of an enum behind its opening brace. -/
def bodyProblems (brace : Token) (name : Option String) (body : Body) : Outline :=
  if body.closed then {}
  else .unbalanced brace.position ("body of enum '" ++ displayName name ++ "' is never closed")

@[simp] theorem enums_bodyProblems (brace : Token) (name : Option String) (body : Body) :
    (bodyProblems brace name body).enums = [] := by
  unfold bodyProblems
  split <;> rfl

/-- The name of an enum and the tokens behind it. Behind `typedef` an alias may follow the body. -/
def nameBehind (isTypedef : Bool) (name : Option String) (body : Body) : Option String × List Token :=
  if isTypedef && name.isNone && body.closed then readAlias body.rest else (name, body.rest)

theorem nameBehind_cases (isTypedef : Bool) (name : Option String) (body : Body) :
    nameBehind isTypedef name body = readAlias body.rest ∨
      nameBehind isTypedef name body = (name, body.rest) := by
  unfold nameBehind
  split
  · exact .inl rfl
  · exact .inr rfl

theorem nameBehind_suffix (isTypedef : Bool) (name : Option String) (body : Body) :
    (nameBehind isTypedef name body).2 <:+ body.rest := by
  obtain h | h := nameBehind_cases isTypedef name body
  · exact h ▸ readAlias_suffix body.rest
  · exact h ▸ List.suffix_rfl

section Enum

variable (state : ScanState) (position : Position) (isTypedef : Bool)

/-- The enum whose keyword stands at `position`, with the parts of its name and its body. -/
def enumOf (isScoped : Bool) (names : List String) (body : Body) : RawEnum where
  name := (nameBehind isTypedef names.getLast? body).1
  scope := state.scopes.scope ++ names.dropLast.map (⟨·, .typeScope⟩)
  isScoped
  position
  doc := state.doc
  enumerators := body.enumerators
  closed := body.closed

/-- Reads the body of an enum, if the tokens start with one. -/
def enterEnum (isScoped : Bool) (names : List String) : List Token → Step
  | [] => { state := { state with doc := [] }, rest := [] }
  | brace :: inside =>
    if brace.isPunct '\x7b' then
      { state := { state with doc := [] }
        found := bodyProblems brace names.getLast? (readBody {} inside) ++
          { enums := [enumOf state position isTypedef isScoped names (readBody {} inside)] }
        rest := (nameBehind isTypedef names.getLast? (readBody {} inside)).2 }
    else { state := { state with doc := [] }, rest := brace :: inside }

theorem readEnum_eq_enterEnum (after : List Token) :
    readEnum state position isTypedef after =
      enterEnum state position isTypedef (readEnumKey (skipComments after)).1 (enumNames after)
        (enumBody after) := by
  rw [enumBody]
  unfold readEnum
  dsimp only
  split
  · rename_i hnone
    rw [hnone]
    rfl
  · rename_i hbody
    rw [hbody]
    rfl

/-- What can come of an enum: without a body it is passed over. -/
inductive EnumRead (after : List Token) : Step → Prop
  | passed {left : List Token} (hbody : enumBody after = left)
      (hnone : ∀ token ∈ left.head?, token.isPunct '\x7b' = false) :
      EnumRead after { state := { state with doc := [] }, rest := left }
  | defined {isScoped : Bool} {brace : Token} {inside : List Token}
      (hbody : enumBody after = brace :: inside) (hbrace : brace.isPunct '\x7b' = true) :
      EnumRead after
        { state := { state with doc := [] }
          found := bodyProblems brace (enumNames after).getLast? (readBody {} inside) ++
            { enums := [enumOf state position isTypedef isScoped (enumNames after)
                (readBody {} inside)] }
          rest := (nameBehind isTypedef (enumNames after).getLast? (readBody {} inside)).2 }

theorem enumRead_readEnum (after : List Token) :
    EnumRead state position isTypedef after (readEnum state position isTypedef after) := by
  rw [readEnum_eq_enterEnum]
  cases hbody : enumBody after with
  | nil => exact .passed hbody (by simp)
  | cons brace inside =>
    rw [enterEnum]
    split
    · rename_i hbrace
      exact .defined hbody hbrace
    · rename_i hbrace
      exact .passed hbody (by simpa using hbrace)

end Enum

/-- How reading gets to the keyword of an enum, which stands at `position` and before `after`: it stands
there, or at a `typedef` with nothing but comments in between. -/
inductive Enters (position : Position) (after : List Token) : Token → List Token → Prop
  | keyword : Enters position after ⟨.ident "enum", position⟩ after
  | viaTypedef (place : Position) {rest : List Token}
      (hrest : skipComments rest = ⟨.ident "enum", position⟩ :: after) :
      Enters position after ⟨.ident "typedef", place⟩ rest

theorem Enters.suffix {position : Position} {after rest : List Token} {token : Token}
    (h : Enters position after token rest) : ⟨.ident "enum", position⟩ :: after <:+ token :: rest := by
  cases h with
  | keyword => exact List.suffix_rfl
  | @viaTypedef place rest hrest =>
    have hskip := skipComments_suffix rest
    rw [hrest] at hskip
    exact hskip.trans (List.suffix_cons ..)

section Advance

variable (state : ScanState) (token : Token) (rest : List Token)

/-- What can come of a step from `token` on. -/
inductive Advance : Step → Prop
  | comment {comment : Comment} (hkind : token.kind = .comment comment) :
      Advance { state := { state with doc := state.doc.observe comment token.position.line }, rest }
  | namespaceWord (hword : token.ident? = some "namespace") :
      Advance (readNamespace state.scopes token.position.line rest)
  | typeWord {word : String} (htype : word ∈ typeWords) (hword : token.ident? = some word) :
      Advance (readType state.scopes token.position.line rest)
  | enum {position : Position} {isTypedef : Bool} {after : List Token}
      (henters : Enters position after token rest) :
      Advance (readEnum state position isTypedef after)
  | opening (hkind : token.kind = .punct '\x7b') :
      Advance { state := { scopes := state.scopes.enter [] token.position.line }, rest }
  | closing (hkind : token.kind = .punct '\x7d') {outer : ScopeStack}
      (hexit : state.scopes.exit = .ok outer) : Advance { state := { scopes := outer }, rest }
  | unexpected (hkind : token.kind = .punct '\x7d') {error : ScopeError}
      (hexit : state.scopes.exit = .error error) :
      Advance
        { state := { state with doc := [] }
          found := .unbalanced token.position error.message
          rest }
  | skipped (hcode : token.isComment = false) : Advance { state := { state with doc := [] }, rest }

theorem advance_step : Advance state token rest (step state token rest) := by
  obtain ⟨kind, position⟩ := token
  unfold step
  dsimp only
  split
  · exact .comment rfl
  · split
    · rename_i hword
      exact .namespaceWord (congrArg some hword)
    split
    · rename_i htype
      exact .typeWord htype rfl
    split
    · rename_i hword
      subst hword
      exact .enum .keyword
    split
    · rename_i hword
      subst hword
      split
      · exact .skipped rfl
      · rename_i next after hnext
        split
        · rename_i henum
          rw [Token.eq_of_isIdent henum] at hnext
          exact .enum (.viaTypedef position hnext)
        · exact .skipped rfl
    · exact .skipped rfl
  · exact .opening rfl
  · split
    · rename_i hexit
      exact .closing rfl hexit
    · rename_i hexit
      exact .unexpected rfl hexit
  · rename_i hcomment _ _ _
    refine .skipped ?_
    cases kind with
    | comment comment => exact absurd rfl (hcomment comment)
    | _ => rfl

end Advance

end Scan

end EnumConverter
