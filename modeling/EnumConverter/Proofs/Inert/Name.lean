import EnumConverter.Proofs.Inert.Nest

namespace EnumConverter.Scan

open Source Text

/-- A token before which nothing can be opened: it neither continues a name nor opens a body. -/
structure StopsOpening (token : Token) : Prop where
  isComment : token.isComment = false
  ident? : token.ident? = none
  isPunct : ∀ c ∈ ['[', ':', '\x7b'], token.isPunct c = false

theorem stopsOpening_pathSeparator (position : Position) :
    StopsOpening ⟨.pathSeparator, position⟩ :=
  ⟨rfl, rfl, fun _ _ => rfl⟩

theorem stopsOpening_punct {c : Char} (hc : c ∉ ['[', ':', '\x7b']) (position : Position) :
    StopsOpening ⟨.punct c, position⟩ := by
  refine ⟨rfl, rfl, ?_⟩
  intro d hd
  have hne : c ≠ d := by
    rintro rfl
    exact hc hd
  simp [Token.isPunct, hne]

namespace StopsOpening

variable {token : Token} (h : StopsOpening token) (rest : List Token)
include h

theorem isIdent (word : String) : token.isIdent word = false := by
  have hident := h.ident?
  obtain ⟨kind, position⟩ := token
  cases kind with
  | ident => simp [Token.ident?] at hident
  | _ => rfl

theorem skipComments_eq : skipComments (token :: rest) = token :: rest := by
  simp [skipComments, h.isComment]

theorem qualifiedName_eq : qualifiedName (skipAttributes (token :: rest)) = ([], token :: rest) := by
  have hnone : afterAttribute? token rest = none := by
    unfold afterAttribute?
    split
    · rfl
    · simp [h.ident?, h.isPunct '[' (by decide)]
  have hattributes : skipAttributes (token :: rest) = token :: rest := by
    apply skipAttributes_stop
    simp [hnone]
  rw [hattributes, qualifiedName_stop (by simp [h.ident?])]

theorem skipBaseClause_eq : skipBaseClause (token :: rest) = token :: rest := by
  simp [skipBaseClause, h.isPunct ':' (by decide)]

theorem afterOpenBrace?_eq : afterOpenBrace? (token :: rest) = none := by
  simp [afterOpenBrace?, h.isPunct '\x7b' (by decide)]

theorem readNamespace_eq (scopes : ScopeStack) (line : Nat) :
    readNamespace scopes line (token :: rest) = { state := { scopes }, rest := token :: rest } := by
  unfold readNamespace
  rw [h.skipComments_eq, namespaceName_none h.ident?]
  dsimp only
  rw [h.afterOpenBrace?_eq]

theorem readType_eq (scopes : ScopeStack) (line : Nat) :
    readType scopes line (token :: rest) = { state := { scopes }, rest := token :: rest } := by
  have hword : skipWord "final" (token :: rest) = token :: rest := by
    simp [skipWord, h.isIdent]
  unfold readType
  rw [h.skipComments_eq, h.qualifiedName_eq]
  dsimp only
  rw [hword, h.skipBaseClause_eq, h.afterOpenBrace?_eq]

theorem readEnum_eq (state : ScanState) (position : Position) (isTypedef : Bool) :
    readEnum state position isTypedef (token :: rest) =
      { state := { state with doc := [] }, rest := token :: rest } := by
  have hkey : readEnumKey (token :: rest) = (false, token :: rest) := by
    simp [readEnumKey, h.isIdent]
  unfold readEnum
  rw [h.skipComments_eq, hkey]
  dsimp only
  rw [h.qualifiedName_eq, h.skipBaseClause_eq]
  simp [h.isPunct '\x7b' (by decide)]

/-- Before such a token, every word is passed over. -/
theorem step_eq (state : ScanState) (word : String) (position : Position) :
    step state ⟨.ident word, position⟩ (token :: rest) =
      { state := { state with doc := [] }, rest := token :: rest } := by
  unfold step
  dsimp only
  rw [h.readNamespace_eq, h.readType_eq, h.readEnum_eq, h.skipComments_eq]
  simp [h.isIdent]

end StopsOpening

/-- The name of a parameter and the parenthesis behind it. -/
def parameterTokens (first second : Position) (rest : List Token) : List Token :=
  ⟨.ident "value", first⟩ :: ⟨.punct ')', second⟩ :: rest

section Parameter

variable (first second : Position) (rest : List Token)

theorem skipComments_parameter :
    skipComments (parameterTokens first second rest) = parameterTokens first second rest := rfl

theorem qualifiedName_parameter :
    qualifiedName (skipAttributes (parameterTokens first second rest)) =
      (["value"], ⟨.punct ')', second⟩ :: rest) :=
  qualifiedName_mark (by decide) (by decide) first second rest

theorem readNamespace_parameter (scopes : ScopeStack) (line : Nat) :
    readNamespace scopes line (parameterTokens first second rest) =
      { state := { scopes }, rest := ⟨.punct ')', second⟩ :: rest } := by
  have hname : namespaceName (parameterTokens first second rest) =
      (["value"], ⟨.punct ')', second⟩ :: rest) :=
    namespaceName_last rfl (by decide) rfl
  unfold readNamespace
  rw [skipComments_parameter, hname]
  rfl

theorem readType_parameter (scopes : ScopeStack) (line : Nat) :
    readType scopes line (parameterTokens first second rest) =
      { state := { scopes }, rest := ⟨.punct ')', second⟩ :: rest } := by
  unfold readType
  rw [skipComments_parameter, qualifiedName_parameter]
  rfl

theorem readEnum_parameter (state : ScanState) (position : Position) :
    readEnum state position false (parameterTokens first second rest) =
      { state := { state with doc := [] }, rest := ⟨.punct ')', second⟩ :: rest } := by
  have hkey : readEnumKey (parameterTokens first second rest) =
      (false, parameterTokens first second rest) := rfl
  unfold readEnum
  rw [skipComments_parameter, hkey]
  dsimp only
  rw [qualifiedName_parameter]
  rfl

/-- Before a parameter, every word is passed over, and the name of the parameter perhaps with it. -/
theorem step_parameter (state : ScanState) (word : String) (position : Position) :
    ∃ tail, step state ⟨.ident word, position⟩ (parameterTokens first second rest) =
        { state := { state with doc := [] }, rest := tail } ∧
      (tail = ⟨.punct ')', second⟩ :: rest ∨ tail = parameterTokens first second rest) := by
  unfold step
  dsimp only
  rw [readNamespace_parameter, readType_parameter, readEnum_parameter]
  split
  · exact ⟨_, rfl, .inl rfl⟩
  split
  · exact ⟨_, rfl, .inl rfl⟩
  split
  · exact ⟨_, rfl, .inl rfl⟩
  split
  · exact ⟨_, rfl, .inr rfl⟩
  · exact ⟨_, rfl, .inr rfl⟩

theorem scanFrom_parameter (final : Position) (scopes : ScopeStack) (doc : DocBlock) (word : String)
    (position : Position) :
    scanFrom final ⟨scopes, doc⟩ (⟨.ident word, position⟩ :: parameterTokens first second rest) =
      scanFrom final ⟨scopes, []⟩ rest := by
  have hmark : scanFrom final ⟨scopes, []⟩ (⟨.punct ')', second⟩ :: rest) =
      scanFrom final ⟨scopes, []⟩ rest := scanFrom_idle rfl final _ rest
  have hboth : scanFrom final ⟨scopes, []⟩ (parameterTokens first second rest) =
      scanFrom final ⟨scopes, []⟩ rest := (scanFrom_idle rfl final _ _).trans hmark
  obtain ⟨tail, hstep, htail⟩ := step_parameter first second rest ⟨scopes, doc⟩ word position
  rw [scanFrom, hstep]
  obtain rfl | rfl := htail
  · exact hmark
  · exact hboth

end Parameter

/-- A text before which every name is passed over. -/
def StopsName (stop : List Char) : Prop :=
  ∀ (depth : Nat) (name : List Char), isIdentifier name = true → Nests depth depth (name ++ stop)

theorem stopsName_pathSeparator : StopsName [':', ':'] := by
  intro depth name hname
  refine .of_scanFrom depth fun here scopes doc => ⟨here.pastCode (name ++ [':', ':']), [], ?_⟩
  intro final rest
  rw [List.append_assoc]
  change scanFrom final _ (here.tokens (name ++ ':' :: ':' :: rest)) = _
  rw [here.tokens_word hname (stopsWord_colon _), Cursor.tokens_pathSeparator, scanFrom,
    (stopsOpening_pathSeparator _).step_eq, Cursor.pastCode_pastCode]
  exact scanFrom_idle rfl final _ _

theorem stopsName_mark {c : Char} (hc : c ∈ [')', ';', '&']) : StopsName [c] := by
  intro depth name hname
  have hfacts : c ∈ Lexeme.marks ∧ c ∉ ['[', ':', '\x7b'] ∧ isIdle (.punct c) = true ∧
      isIdentRest c = false ∧ c ≠ '"' ∧ c ≠ '\'' := by
    simp only [List.mem_cons, List.not_mem_nil, or_false] at hc
    rcases hc with rfl | rfl | rfl <;> decide
  obtain ⟨hmark, hstop, hidle, hrest, hquote, hprime⟩ := hfacts
  refine .of_scanFrom depth fun here scopes doc => ⟨here.pastCode (name ++ [c]), [], ?_⟩
  intro final rest
  rw [List.append_assoc]
  change scanFrom final _ (here.tokens (name ++ c :: rest)) = _
  rw [here.tokens_word hname (stopsWord_cons hrest hquote hprime rest), Cursor.tokens_mark _ hmark,
    scanFrom, (stopsOpening_punct hstop _).step_eq, Cursor.pastCode_pastCode]
  exact scanFrom_idle hidle final _ _

theorem stopsName_ampersand : StopsName "&".toList :=
  stopsName_mark (by decide : '&' ∈ _)

theorem stopsName_parameter : StopsName " value)".toList := by
  intro depth name hname
  refine .of_scanFrom depth fun here scopes doc =>
    ⟨here.pastCode (name ++ " value)".toList), [], ?_⟩
  intro final rest
  have hclose : StopsWord (')' :: rest) := stopsWord_cons (by decide) (by decide) (by decide) rest
  rw [List.append_assoc]
  change scanFrom final _ (here.tokens (name ++ ' ' :: ("value".toList ++ ')' :: rest))) = _
  rw [here.tokens_word hname (stopsWord_space _), Cursor.tokens_blank _ (by decide),
    Cursor.tokens_word _ (by decide) hclose, Cursor.tokens_mark _ (by decide)]
  refine (scanFrom_parameter _ _ _ final scopes doc _ _).trans ?_
  simp

/-- A qualified name is passed over if its last part is. -/
theorem nests_path (depth : Nat) {names : List String} {stop : List Char} (hne : names ≠ [])
    (hnames : ∀ name ∈ names, isIdentifier name.toList = true) (hstop : StopsName stop) :
    Nests depth depth ((joined "::" names).toList ++ stop) := by
  fun_induction joined "::" names with
  | case1 => exact absurd rfl hne
  | case2 name => exact hstop depth name.toList (hnames name (by simp))
  | case3 name next names ih =>
    have hqualifier := stopsName_pathSeparator depth name.toList (hnames name (by simp))
    have hrest := ih (by simp) fun other hother => hnames other (by simp [hother])
    have htext : (name ++ "::" ++ joined "::" (next :: names)).toList ++ stop =
        name.toList ++ [':', ':'] ++ ((joined "::" (next :: names)).toList ++ stop) := by
      simp
    rw [htext]
    exact hqualifier.append hrest

end EnumConverter.Scan
