import EnumConverter.Scope
import EnumConverter.Source.Token

namespace EnumConverter.Scan

open Source

/-- The tokens from the first one that is not a comment. -/
def skipComments (tokens : List Token) : List Token :=
  tokens.dropWhile Token.isComment

/-- The tokens behind the end of a group whose opening token was read, with `inner` more groups open
inside it. -/
def afterGroup? (opening closing : Char) (inner : Nat) : List Token → Option (List Token)
  | [] => none
  | token :: rest =>
    if token.isPunct opening then afterGroup? opening closing (inner + 1) rest
    else if token.isPunct closing then
      match inner with
      | 0 => some rest
      | inner + 1 => afterGroup? opening closing inner rest
    else afterGroup? opening closing inner rest

/-- Words that open an attribute with arguments. -/
def attributeWords : List String := ["alignas", "__attribute__", "__declspec"]

/-- The tokens behind the attribute that starts with `token`, if one does. -/
def afterAttribute? (token : Token) (rest : List Token) : Option (List Token) :=
  match skipComments rest with
  | [] => none
  | next :: args =>
    if token.isPunct '[' && next.isPunct '[' then afterGroup? '[' ']' 0 rest
    else if token.ident?.any (· ∈ attributeWords) && next.isPunct '(' then afterGroup? '(' ')' 0 args
    else none

theorem skipComments_suffix (tokens : List Token) : skipComments tokens <:+ tokens :=
  List.dropWhile_suffix _

theorem afterGroup?_suffix {opening closing : Char} {inner : Nat} {tokens rest : List Token}
    (h : afterGroup? opening closing inner tokens = some rest) : rest <:+ tokens := by
  fun_induction afterGroup? opening closing inner tokens with
  | case1 => simp at h
  | case2 inner token tokens _ ih => exact (ih h).trans (List.suffix_cons ..)
  | case3 token tokens => simp_all
  | case4 token tokens _ _ inner ih => exact (ih h).trans (List.suffix_cons ..)
  | case5 inner token tokens _ _ ih => exact (ih h).trans (List.suffix_cons ..)

theorem afterAttribute?_suffix {token : Token} {tokens rest : List Token}
    (h : afterAttribute? token tokens = some rest) : rest <:+ tokens := by
  have hskip := skipComments_suffix tokens
  unfold afterAttribute? at h
  split at h
  · simp at h
  · rename_i next args hargs
    rw [hargs] at hskip
    split at h
    · exact afterGroup?_suffix h
    · split at h
      · exact (afterGroup?_suffix h).trans ((List.suffix_cons ..).trans hskip)
      · simp at h

/-- The tokens behind all attributes. An attribute that nothing follows is not skipped. -/
def skipAttributes : List Token → List Token
  | [] => []
  | token :: rest =>
    match _h : (afterAttribute? token rest).map skipComments with
    | some (next :: after) => skipAttributes (next :: after)
    | _ => token :: rest
termination_by tokens => tokens.length
decreasing_by
  obtain ⟨tail, hattribute, hskip⟩ := Option.map_eq_some_iff.1 _h
  have htail := (skipComments_suffix tail).trans (afterAttribute?_suffix hattribute)
  rw [hskip] at htail
  exact Nat.lt_succ_of_le htail.length_le

/-- Words that end a name although they look like a part of it. -/
def specifierWords : List String := "final" :: attributeWords

/-- The tokens behind a list of template arguments, if one starts here. A list that does not end
takes everything. -/
def skipTemplateArguments (tokens : List Token) : List Token :=
  match tokens with
  | [] => []
  | token :: rest =>
    if token.isPunct '<' then ((afterGroup? '<' '>' 0 rest).map skipComments).getD []
    else token :: rest

theorem skipTemplateArguments_suffix (tokens : List Token) :
    skipTemplateArguments tokens <:+ tokens := by
  unfold skipTemplateArguments
  split
  · exact List.suffix_rfl
  · rename_i token rest
    split
    · cases hgroup : afterGroup? '<' '>' 0 rest with
      | none => exact List.nil_suffix
      | some after =>
        exact ((skipComments_suffix after).trans (afterGroup?_suffix hgroup)).trans
          (List.suffix_cons ..)
    · exact List.suffix_rfl

/-- The tokens behind a path separator, if one starts here. -/
def afterPathSeparator? : List Token → Option (List Token)
  | [] => none
  | token :: rest => if token.kind = .pathSeparator then some (skipComments rest) else none

theorem afterPathSeparator?_suffix {tokens rest : List Token}
    (h : afterPathSeparator? tokens = some rest) : rest <:+ tokens := by
  unfold afterPathSeparator? at h
  split at h
  · simp at h
  · rename_i token after
    split at h
    · simp only [Option.some.injEq] at h
      subst h
      exact (skipComments_suffix after).trans (List.suffix_cons ..)
    · simp at h

/-- Reads a qualified name such as `A::B<int>::C`: its parts without template arguments, and the
tokens behind it. -/
def qualifiedName : List Token → List String × List Token
  | [] => ([], [])
  | token :: rest =>
    match token.ident? with
    | none => ([], token :: rest)
    | some name =>
      if name ∈ specifierWords then ([], token :: rest)
      else
        match _h : afterPathSeparator? (skipTemplateArguments (skipComments rest)) with
        | none => ([name], skipTemplateArguments (skipComments rest))
        | some tail =>
          let (names, left) := qualifiedName tail
          (name :: names, left)
termination_by tokens => tokens.length
decreasing_by
  have htail := (afterPathSeparator?_suffix _h).trans
    ((skipTemplateArguments_suffix _).trans (skipComments_suffix rest))
  exact Nat.lt_succ_of_le htail.length_le

theorem qualifiedName_suffix (tokens : List Token) : (qualifiedName tokens).2 <:+ tokens := by
  fun_induction qualifiedName tokens with
  | case1 => exact List.suffix_rfl
  | case2 => exact List.suffix_rfl
  | case3 => exact List.suffix_rfl
  | case4 token rest =>
    exact ((skipTemplateArguments_suffix _).trans (skipComments_suffix rest)).trans
      (List.suffix_cons ..)
  | case5 token rest _ _ _ tail htail names left hread ih =>
    rw [hread] at ih
    exact (ih.trans ((afterPathSeparator?_suffix htail).trans
      ((skipTemplateArguments_suffix _).trans (skipComments_suffix rest)))).trans
      (List.suffix_cons ..)

/-- The tokens from the first opening brace or semicolon outside parentheses, with `depth` parentheses
open. -/
def bodyOrEnd (depth : Nat) : List Token → List Token
  | [] => []
  | token :: rest =>
    if token.isPunct '(' then bodyOrEnd (depth + 1) rest
    else if token.isPunct ')' then bodyOrEnd (depth - 1) rest
    else if depth = 0 && (token.isPunct '\x7b' || token.isPunct ';') then token :: rest
    else bodyOrEnd depth rest

theorem bodyOrEnd_suffix (depth : Nat) (tokens : List Token) : bodyOrEnd depth tokens <:+ tokens := by
  fun_induction bodyOrEnd depth tokens with
  | case1 => exact List.suffix_rfl
  | case2 _ _ _ _ ih => exact ih.trans (List.suffix_cons ..)
  | case3 _ _ _ _ _ ih => exact ih.trans (List.suffix_cons ..)
  | case4 => exact List.suffix_rfl
  | case5 _ _ _ _ _ _ ih => exact ih.trans (List.suffix_cons ..)

theorem skipAttributes_suffix (tokens : List Token) : skipAttributes tokens <:+ tokens := by
  fun_induction skipAttributes tokens with
  | case1 => exact List.suffix_rfl
  | case2 token rest next after h ih =>
    obtain ⟨tail, hattribute, hskip⟩ := Option.map_eq_some_iff.1 h
    have htail := (skipComments_suffix tail).trans (afterAttribute?_suffix hattribute)
    rw [hskip] at htail
    exact ih.trans (htail.trans (List.suffix_cons ..))
  | case3 => exact List.suffix_rfl

/-- The tokens from the body on, if a list of base types or an underlying type starts here. -/
def skipBaseClause (tokens : List Token) : List Token :=
  match tokens with
  | [] => []
  | token :: rest => if token.isPunct ':' then bodyOrEnd 0 rest else token :: rest

theorem skipBaseClause_suffix (tokens : List Token) : skipBaseClause tokens <:+ tokens := by
  unfold skipBaseClause
  split
  · exact List.suffix_rfl
  · split
    · exact (bodyOrEnd_suffix ..).trans (List.suffix_cons ..)
    · exact List.suffix_rfl

/-- The tokens behind a word, if it stands here. -/
def skipWord (word : String) (tokens : List Token) : List Token :=
  match tokens with
  | [] => []
  | token :: rest => if token.isIdent word then skipComments rest else token :: rest

theorem skipWord_suffix (word : String) (tokens : List Token) : skipWord word tokens <:+ tokens := by
  unfold skipWord
  split
  · exact List.suffix_rfl
  · split
    · exact (skipComments_suffix _).trans (List.suffix_cons ..)
    · exact List.suffix_rfl

/-- The tokens behind an opening brace, if one stands here. -/
def afterOpenBrace? : List Token → Option (List Token)
  | [] => none
  | token :: rest => if token.isPunct '\x7b' then some rest else none

theorem afterOpenBrace?_suffix {tokens rest : List Token} (h : afterOpenBrace? tokens = some rest) :
    rest <:+ tokens := by
  unfold afterOpenBrace? at h
  split at h
  · simp at h
  · split at h
    · simp only [Option.some.injEq] at h
      exact h ▸ List.suffix_cons ..
    · simp at h

/-- Reads the name of a namespace, which may be qualified, absent or marked `inline` in each part. -/
def namespaceName : List Token → List String × List Token
  | [] => ([], [])
  | token :: rest =>
    match token.ident? with
    | none => ([], token :: rest)
    | some name =>
      if name = "inline" then namespaceName (skipComments rest)
      else
        match _h : afterPathSeparator? (skipComments rest) with
        | none => ([name], skipComments rest)
        | some tail =>
          let (names, left) := namespaceName tail
          (name :: names, left)
termination_by tokens => tokens.length
decreasing_by
  · exact Nat.lt_succ_of_le (skipComments_suffix rest).length_le
  · have htail := (afterPathSeparator?_suffix _h).trans (skipComments_suffix rest)
    exact Nat.lt_succ_of_le htail.length_le

theorem namespaceName_suffix (tokens : List Token) : (namespaceName tokens).2 <:+ tokens := by
  fun_induction namespaceName tokens with
  | case1 => exact List.suffix_rfl
  | case2 => exact List.suffix_rfl
  | case3 token rest _ ih =>
    exact (ih.trans (skipComments_suffix rest)).trans (List.suffix_cons ..)
  | case4 token rest => exact (skipComments_suffix rest).trans (List.suffix_cons ..)
  | case5 token rest _ _ _ tail htail names left hread ih =>
    rw [hread] at ih
    exact (ih.trans ((afterPathSeparator?_suffix htail).trans (skipComments_suffix rest))).trans
      (List.suffix_cons ..)

end EnumConverter.Scan
