import EnumConverter.Proofs.Document.Block
import EnumConverter.Proofs.Scan.Equation
import EnumConverter.Proofs.Spelling.Tokens
import EnumConverter.Scan.Outline

namespace EnumConverter.Scan

open Source Text

/-- Where scanning stands: in the text, and in its scopes. -/
structure Spot where
  cursor : Cursor := {}
  state : ScanState := {}

/-- What is found from a spot on. -/
def Spot.scan (spot : Spot) (final : Position) (rest : List Char) : Outline :=
  scanFrom final spot.state (spot.cursor.tokens rest)

/-- A text takes the scanner from one spot to another and gives `found` on the way. -/
def Passes (before : Spot) (text : List Char) (found : Outline) (after : Spot) : Prop :=
  ∀ final rest, before.scan final (text ++ rest) = found ++ after.scan final rest

theorem Passes.trans {before between after : Spot} {first second : List Char} {found more : Outline}
    (hfirst : Passes before first found between) (hsecond : Passes between second more after) :
    Passes before (first ++ second) (found ++ more) after := by
  intro final rest
  rw [List.append_assoc, hfirst, hsecond, Outline.append_assoc]

/-- A passage that finds nothing, before another one. -/
theorem Passes.then {before between after : Spot} {first second : List Char} {found : Outline}
    (hfirst : Passes before first {} between) (hsecond : Passes between second found after) :
    Passes before (first ++ second) found after :=
  hfirst.trans hsecond

theorem passes_blank (here : Cursor) (state : ScanState) {c : Char} (hblank : isBlank c = true) :
    Passes ⟨here, state⟩ [c] {} ⟨here.pastBlank c, state⟩ := by
  intro final rest
  change scanFrom final state (here.tokens (c :: rest)) = _
  rw [Cursor.tokens_blank here hblank]
  rfl

/-- A text that is scanned from the start to a spot without open scopes gives what was found. -/
theorem scan_of_passes {source : String} {found : Outline} {after : Spot}
    (h : Passes {} source.toList found after) (hclosed : after.state.scopes = []) :
    scan source = found := by
  have hend := h (((tokenize source).getLast?.map (·.position)).getD .start) []
  rw [List.append_nil] at hend
  refine Eq.trans hend ?_
  rw [Spot.scan, Cursor.tokens_nil, scanFrom, hclosed]
  exact found.append_empty

/-- Words that open something. -/
def openingWords : List String :=
  "namespace" :: "enum" :: "typedef" :: typeWords

/-- Whether a token means nothing to the scanner, wherever it stands. -/
def isIdle : TokenKind → Bool
  | .ident word => word ∉ openingWords
  | .punct c => c ≠ '\x7b' && c ≠ '\x7d'
  | .comment _ => false
  | _ => true

theorem step_idle {token : Token} (h : isIdle token.kind = true) (state : ScanState)
    (rest : List Token) : step state token rest = { state := { state with doc := [] }, rest } := by
  obtain ⟨kind, position⟩ := token
  cases kind with
  | ident word =>
    simp only [isIdle, openingWords, List.mem_cons, not_or, decide_eq_true_eq] at h
    simp [step, h.1, h.2.1, h.2.2.1, h.2.2.2]
  | punct c =>
    obtain ⟨hopen, hclose⟩ : c ≠ '\x7b' ∧ c ≠ '\x7d' := by simpa [isIdle] using h
    simp only [step]
    split <;> simp_all
  | comment => simp [isIdle] at h
  | _ => rfl

theorem scanFrom_idle {token : Token} (h : isIdle token.kind = true) (final : Position)
    (state : ScanState) (rest : List Token) :
    scanFrom final state (token :: rest) = scanFrom final { state with doc := [] } rest := by
  rw [scanFrom, step_idle h]
  rfl

theorem scanFrom_comment (final : Position) (state : ScanState) (comment : Comment)
    (position : Position) (rest : List Token) :
    scanFrom final state (⟨.comment comment, position⟩ :: rest) =
      scanFrom final { state with doc := state.doc.observe comment position.line } rest := by
  rw [scanFrom]
  rfl

/-- Comments are shown to the collector one by one. -/
theorem scanFrom_observeAll (final : Position) (scopes : ScopeStack) (doc : DocBlock)
    {comments : List Token} (h : ∀ token ∈ comments, token.isComment = true) (rest : List Token) :
    scanFrom final ⟨scopes, doc⟩ (comments ++ rest) =
      scanFrom final ⟨scopes, doc.observeAll (placedComments comments)⟩ rest := by
  induction comments generalizing doc with
  | nil => rfl
  | cons token comments ih =>
    obtain ⟨kind, position⟩ := token
    have htoken := h _ (List.mem_cons_self ..)
    cases kind with
    | comment comment =>
      rw [List.cons_append, scanFrom_comment]
      exact ih _ fun other hother => h other (List.mem_cons_of_mem _ hother)
    | _ => simp [Token.isComment, Token.comment?] at htoken

theorem passes_lineComment (here : Cursor) (state : ScanState) {text : List Char}
    (htext : '\n' ∉ text) :
    Passes ⟨here, state⟩ ('/' :: '/' :: text ++ ['\n']) {}
      ⟨(here.pastComment ('/' :: '/' :: text)).pastBlank '\n',
        { state with doc := state.doc.observe (here.comment .line (trimEnd ('/' :: '/' :: text))
          here.position.line) here.position.line }⟩ := by
  intro final rest
  rw [List.append_assoc, List.singleton_append, Spot.scan,
    here.tokens_lineComment htext (.inr rfl), Cursor.tokens_blank _ (by decide), Cursor.lineComment,
    scanFrom_comment]
  rfl

theorem passes_mark (here : Cursor) (state : ScanState) {c : Char} (hmark : c ∈ Lexeme.marks)
    (hidle : isIdle (.punct c) = true) :
    Passes ⟨here, state⟩ [c] {} ⟨here.pastCode [c], { state with doc := [] }⟩ := by
  intro final rest
  change scanFrom final state (here.tokens (c :: rest)) = _
  rw [here.tokens_mark hmark, scanFrom_idle hidle]
  rfl

theorem passes_openBrace (here : Cursor) (scopes : ScopeStack) (doc : DocBlock) :
    Passes ⟨here, scopes, doc⟩ ['\x7b'] {}
      ⟨here.pastCode ['\x7b'], scopes.enter [] here.position.line, []⟩ := by
  intro final rest
  change scanFrom final _ (here.tokens ('\x7b' :: rest)) = _
  rw [here.tokens_mark (by decide), scanFrom]
  rfl

theorem passes_closeBrace (here : Cursor) (scope : OpenScope) (scopes : ScopeStack)
    (doc : DocBlock) :
    Passes ⟨here, scope :: scopes, doc⟩ ['\x7d'] {} ⟨here.pastCode ['\x7d'], scopes, []⟩ := by
  intro final rest
  change scanFrom final _ (here.tokens ('\x7d' :: rest)) = _
  rw [here.tokens_mark (by decide), scanFrom]
  rfl

/-- The tokens of names with path separators between them, from a position on. -/
def pathTokens (here : Position) : List String → List Token
  | [] => []
  | [name] => [⟨.ident name, here⟩]
  | name :: next :: rest =>
    ⟨.ident name, here⟩ :: ⟨.pathSeparator, here.after name.toList⟩ ::
      pathTokens (here.after (name.toList ++ [':', ':'])) (next :: rest)

theorem tokens_path (here : Cursor) {names : List String} {rest : List Char} (hne : names ≠ [])
    (hnames : ∀ name ∈ names, isIdentifier name.toList = true) (hstop : StopsWord rest) :
    here.tokens ((joined "::" names).toList ++ rest) =
      pathTokens here.position names ++ (here.pastCode (joined "::" names).toList).tokens rest := by
  fun_induction joined "::" names generalizing here with
  | case1 => exact absurd rfl hne
  | case2 name =>
    rw [here.tokens_word (hnames name (by simp)) hstop, String.ofList_toList]
    rfl
  | case3 name next names ih =>
    have hcolon := stopsWord_colon (':' :: ((joined "::" (next :: names)).toList ++ rest))
    simp only [String.toList_append, List.append_assoc]
    change here.tokens (name.toList ++ ':' :: ':' :: ((joined "::" (next :: names)).toList ++ rest)) = _
    rw [here.tokens_word (hnames name (by simp)) hcolon, Cursor.tokens_pathSeparator,
      ih _ (by simp) (fun other hother => hnames other (by simp [hother]))]
    simp [pathTokens]

theorem skipComments_pathTokens (here there : Position) (names : List String) (c : Char)
    (rest : List Token) :
    skipComments (pathTokens here names ++ ⟨.punct c, there⟩ :: rest) =
      pathTokens here names ++ ⟨.punct c, there⟩ :: rest := by
  fun_cases pathTokens here names <;> rfl

/-- The name of a namespace is read back up to the mark behind it. -/
theorem namespaceName_pathTokens (here there : Position) {names : List String}
    (hinline : "inline" ∉ names) (c : Char) (rest : List Token) :
    namespaceName (pathTokens here names ++ ⟨.punct c, there⟩ :: rest) =
      (names, ⟨.punct c, there⟩ :: rest) := by
  fun_induction pathTokens here names with
  | case1 => exact namespaceName_none rfl
  | case2 here name =>
    have hname : name ≠ "inline" := by simpa [eq_comm] using hinline
    rw [List.singleton_append, namespaceName_last rfl hname rfl]
    rfl
  | case3 here name next names ih =>
    rw [List.mem_cons, not_or] at hinline
    have hmore : afterPathSeparator? (skipComments (⟨.pathSeparator, here.after name.toList⟩ ::
        (pathTokens (here.after (name.toList ++ [':', ':'])) (next :: names) ++
          ⟨.punct c, there⟩ :: rest))) =
        some (pathTokens (here.after (name.toList ++ [':', ':'])) (next :: names) ++
          ⟨.punct c, there⟩ :: rest) :=
      congrArg some (skipComments_pathTokens ..)
    rw [List.cons_append, List.cons_append, namespaceName_more rfl (Ne.symm hinline.1) hmore,
      ih hinline.2]

/-- The line that opens a namespace, without its line feed. -/
def namespaceHeader : List String → String
  | [] => "namespace \x7b"
  | name :: names => "namespace " ++ joined "::" (name :: names) ++ " \x7b"

/-- The scope that a namespace of the given names opens on a line. -/
def namespaceSegments (names : List String) : Scope :=
  names.map (⟨·, .namespaceScope⟩)

theorem readNamespace_pathTokens (here there : Position) {names : List String}
    (hinline : "inline" ∉ names) (inside : List Token) (scopes : ScopeStack) (line : Nat) :
    readNamespace scopes line (pathTokens here names ++ ⟨.punct '\x7b', there⟩ :: inside) =
      { state := { scopes := scopes.enter (namespaceSegments names) line }, rest := inside } := by
  unfold readNamespace
  rw [skipComments_pathTokens, namespaceName_pathTokens here there hinline]
  rfl

/-- The tokens of the line that opens a namespace. -/
theorem tokens_namespaceHeader (here : Cursor) {names : List String}
    (hnames : ∀ name ∈ names, isIdentifier name.toList = true) (rest : List Char) :
    ∃ first last, here.tokens ((namespaceHeader names).toList ++ rest) =
      ⟨.ident "namespace", here.position⟩ :: (pathTokens first names ++
        ⟨.punct '\x7b', last⟩ :: (here.pastCode (namespaceHeader names).toList).tokens rest) := by
  cases names with
  | nil =>
    refine ⟨.start, here.position.after "namespace ".toList, ?_⟩
    change here.tokens ("namespace".toList ++ ' ' :: '\x7b' :: rest) = _
    rw [here.tokens_word (by decide) (stopsWord_space _), Cursor.tokens_blank _ (by decide),
      Cursor.tokens_mark _ (by decide)]
    rfl
  | cons name names =>
    have htext : (namespaceHeader (name :: names)).toList ++ rest = "namespace".toList ++
        ' ' :: ((joined "::" (name :: names)).toList ++ ' ' :: '\x7b' :: rest) := by
      simp [namespaceHeader]
    have hheader : (namespaceHeader (name :: names)).toList = "namespace".toList ++
        ' ' :: ((joined "::" (name :: names)).toList ++ [' ', '\x7b']) := by
      simp [namespaceHeader]
    rw [htext, here.tokens_word (by decide) (stopsWord_space _), Cursor.tokens_blank _ (by decide),
      tokens_path _ (by simp) hnames (stopsWord_space _), Cursor.tokens_blank _ (by decide),
      Cursor.tokens_mark _ (by decide), hheader]
    exact ⟨_, _, by simp; rfl⟩

theorem passes_namespaceHeader (here : Cursor) (scopes : ScopeStack) (doc : DocBlock)
    {names : List String} (hnames : ∀ name ∈ names, isIdentifier name.toList = true)
    (hinline : "inline" ∉ names) :
    Passes ⟨here, scopes, doc⟩ (namespaceHeader names).toList {}
      ⟨here.pastCode (namespaceHeader names).toList,
        scopes.enter (namespaceSegments names) here.position.line, []⟩ := by
  intro final rest
  obtain ⟨first, last, htokens⟩ := tokens_namespaceHeader here hnames rest
  rw [Spot.scan, htokens, scanFrom]
  change (readNamespace scopes here.position.line _).found ++ scanFrom final
    (readNamespace scopes here.position.line _).state
    (readNamespace scopes here.position.line _).rest = _
  rw [readNamespace_pathTokens first last hinline]
  rfl

end EnumConverter.Scan
