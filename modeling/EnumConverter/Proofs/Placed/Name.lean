import EnumConverter.Proofs.Scan.Equation
import EnumConverter.Source.Comment

namespace EnumConverter

open Source Scan

/-- Puts code `lines` lines further down and words its comments by `wording`, which keeps the mark by
which a comment goes on with the one above it. -/
structure Placement where
  lines : Nat
  wording : String → String
  isContinuation_wording : ∀ text, isContinuation (wording text) = isContinuation text

namespace Placement

/-- Puts code further down. -/
def down (lines : Nat) : Placement where
  lines := lines
  wording := id
  isContinuation_wording := fun _ => rfl

variable (placement : Placement)

def position (position : Position) : Position :=
  { position with line := position.line + placement.lines }

def comment (comment : Comment) : Comment :=
  { comment with
    text := placement.wording comment.text
    endLine := comment.endLine + placement.lines }

def kind : TokenKind → TokenKind
  | .comment comment => .comment (placement.comment comment)
  | kind => kind

def token (token : Token) : Token :=
  ⟨placement.kind token.kind, placement.position token.position⟩

def tokens (tokens : List Token) : List Token :=
  tokens.map placement.token

@[simp] theorem line_position (position : Position) :
    (placement.position position).line = position.line + placement.lines := rfl

@[simp] theorem position_token (token : Token) :
    (placement.token token).position = placement.position token.position := rfl

@[simp] theorem kind_token (token : Token) :
    (placement.token token).kind = placement.kind token.kind := rfl

@[simp] theorem tokens_nil : placement.tokens [] = [] := rfl

@[simp] theorem tokens_cons (token : Token) (rest : List Token) :
    placement.tokens (token :: rest) = placement.token token :: placement.tokens rest := rfl

@[simp] theorem tokens_eq_nil {tokens : List Token} : placement.tokens tokens = [] ↔ tokens = [] :=
  List.map_eq_nil_iff

@[simp] theorem comment?_token (token : Token) :
    (placement.token token).comment? = token.comment?.map placement.comment := by
  obtain ⟨kind, position⟩ := token
  cases kind <;> rfl

@[simp] theorem isComment_token (token : Token) :
    (placement.token token).isComment = token.isComment := by
  simp [Token.isComment]

@[simp] theorem ident?_token (token : Token) : (placement.token token).ident? = token.ident? := by
  obtain ⟨kind, position⟩ := token
  cases kind <;> rfl

@[simp] theorem isIdent_token (token : Token) (word : String) :
    (placement.token token).isIdent word = token.isIdent word := by
  obtain ⟨kind, position⟩ := token
  cases kind <;> simp [Token.isIdent, token, Placement.kind]

@[simp] theorem isPunct_token (token : Token) (c : Char) :
    (placement.token token).isPunct c = token.isPunct c := by
  obtain ⟨kind, position⟩ := token
  cases kind <;> simp [Token.isPunct, token, Placement.kind]

@[simp] theorem kind_eq_pathSeparator {kind : TokenKind} :
    placement.kind kind = .pathSeparator ↔ kind = .pathSeparator := by
  cases kind <;> simp [Placement.kind]

@[simp] theorem skipComments_tokens (tokens : List Token) :
    skipComments (placement.tokens tokens) = placement.tokens (skipComments tokens) := by
  simp [skipComments, Placement.tokens, List.dropWhile_map, Function.comp_def]

@[simp] theorem afterGroup?_tokens (opening closing : Char) (inner : Nat) (tokens : List Token) :
    afterGroup? opening closing inner (placement.tokens tokens) =
      (afterGroup? opening closing inner tokens).map placement.tokens := by
  fun_induction afterGroup? opening closing inner tokens with
  | case1 => rfl
  | case2 inner token rest hopening ih => simp [afterGroup?, hopening, ih]
  | case3 token rest hopening hclosing => simp [afterGroup?, hopening, hclosing]
  | case4 token rest hopening hclosing inner ih => simp [afterGroup?, hopening, hclosing, ih]
  | case5 inner token rest hopening hclosing ih =>
    rw [tokens_cons, afterGroup?.eq_def]
    simp [hopening, hclosing, ih]

theorem afterAttribute?_tokens (token : Token) (rest : List Token) :
    afterAttribute? (placement.token token) (placement.tokens rest) =
      (afterAttribute? token rest).map placement.tokens := by
  unfold afterAttribute?
  rw [skipComments_tokens]
  cases skipComments rest with
  | nil => rfl
  | cons next args =>
    simp only [tokens_cons, isPunct_token, ident?_token, afterGroup?_tokens]
    split
    · rfl
    split <;> rfl

theorem map_skipComments_afterAttribute? (token : Token) (rest : List Token) :
    (afterAttribute? (placement.token token) (placement.tokens rest)).map skipComments =
      ((afterAttribute? token rest).map skipComments).map placement.tokens := by
  rw [afterAttribute?_tokens]
  cases afterAttribute? token rest <;> simp

@[simp] theorem skipAttributes_tokens (tokens : List Token) :
    skipAttributes (placement.tokens tokens) = placement.tokens (skipAttributes tokens) := by
  fun_induction skipAttributes tokens with
  | case1 => simp [skipAttributes]
  | case2 token rest next after hattribute ih =>
    rw [← ih, tokens_cons, tokens_cons]
    apply skipAttributes_attribute
    rw [map_skipComments_afterAttribute?, hattribute]
    rfl
  | case3 token rest hstop =>
    rw [tokens_cons]
    apply skipAttributes_stop
    intro next after hattribute
    rw [map_skipComments_afterAttribute?] at hattribute
    obtain ⟨tail, htail, htokens⟩ := Option.map_eq_some_iff.1 hattribute
    cases tail with
    | nil => simp at htokens
    | cons first others => exact hstop first others htail

@[simp] theorem skipTemplateArguments_tokens (tokens : List Token) :
    skipTemplateArguments (placement.tokens tokens) =
      placement.tokens (skipTemplateArguments tokens) := by
  cases tokens with
  | nil => rfl
  | cons token rest =>
    simp only [tokens_cons, skipTemplateArguments, isPunct_token, afterGroup?_tokens]
    split
    · cases afterGroup? '<' '>' 0 rest <;> simp
    · rfl

@[simp] theorem afterPathSeparator?_tokens (tokens : List Token) :
    afterPathSeparator? (placement.tokens tokens) =
      (afterPathSeparator? tokens).map placement.tokens := by
  cases tokens with
  | nil => rfl
  | cons token rest =>
    simp only [tokens_cons, afterPathSeparator?, kind_token, kind_eq_pathSeparator]
    split <;> simp

theorem qualifiedName_tokens (tokens : List Token) :
    qualifiedName (placement.tokens tokens) =
      ((qualifiedName tokens).1, placement.tokens (qualifiedName tokens).2) := by
  fun_induction qualifiedName tokens with
  | case1 => simp [qualifiedName]
  | case2 token rest hident =>
    rw [tokens_cons]
    exact qualifiedName_stop (by simp [hident])
  | case3 token rest name hident hname =>
    rw [tokens_cons]
    exact qualifiedName_stop (by simpa [hident] using hname)
  | case4 token rest name hident hname hlast =>
    rw [tokens_cons, qualifiedName_last ((ident?_token ..).trans hident) hname (by simp [hlast])]
    simp
  | case5 token rest name hident hname tail hmore names left hread ih =>
    have hplaced : afterPathSeparator? (skipTemplateArguments (skipComments (placement.tokens rest))) =
        some (placement.tokens tail) := by simp [hmore]
    rw [tokens_cons, qualifiedName_more ((ident?_token ..).trans hident) hname hplaced, ih, hread]

@[simp] theorem bodyOrEnd_tokens (depth : Nat) (tokens : List Token) :
    bodyOrEnd depth (placement.tokens tokens) = placement.tokens (bodyOrEnd depth tokens) := by
  induction tokens generalizing depth with
  | nil => rfl
  | cons token rest ih =>
    simp only [tokens_cons, bodyOrEnd, isPunct_token, ih]
    repeat' split
    all_goals rfl

@[simp] theorem skipBaseClause_tokens (tokens : List Token) :
    skipBaseClause (placement.tokens tokens) = placement.tokens (skipBaseClause tokens) := by
  cases tokens with
  | nil => rfl
  | cons token rest =>
    simp only [tokens_cons, skipBaseClause, isPunct_token, bodyOrEnd_tokens]
    split <;> rfl

@[simp] theorem skipWord_tokens (word : String) (tokens : List Token) :
    skipWord word (placement.tokens tokens) = placement.tokens (skipWord word tokens) := by
  cases tokens with
  | nil => rfl
  | cons token rest =>
    simp only [tokens_cons, skipWord, isIdent_token, skipComments_tokens]
    split <;> rfl

@[simp] theorem afterOpenBrace?_tokens (tokens : List Token) :
    afterOpenBrace? (placement.tokens tokens) = (afterOpenBrace? tokens).map placement.tokens := by
  cases tokens with
  | nil => rfl
  | cons token rest =>
    simp only [tokens_cons, afterOpenBrace?, isPunct_token]
    split <;> rfl

theorem namespaceName_tokens (tokens : List Token) :
    namespaceName (placement.tokens tokens) =
      ((namespaceName tokens).1, placement.tokens (namespaceName tokens).2) := by
  fun_induction namespaceName tokens with
  | case1 => simp [namespaceName]
  | case2 token rest hident =>
    rw [tokens_cons]
    exact namespaceName_none (by simp [hident])
  | case3 token rest hident ih =>
    rw [tokens_cons, namespaceName_inline ((ident?_token ..).trans hident), skipComments_tokens, ih]
  | case4 token rest name hident hname hlast =>
    rw [tokens_cons, namespaceName_last ((ident?_token ..).trans hident) hname (by simp [hlast])]
    simp
  | case5 token rest name hident hname tail hmore names left hread ih =>
    have hplaced : afterPathSeparator? (skipComments (placement.tokens rest)) =
        some (placement.tokens tail) := by simp [hmore]
    rw [tokens_cons, namespaceName_more ((ident?_token ..).trans hident) hname hplaced, ih, hread]

end Placement

end EnumConverter
