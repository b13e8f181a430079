import EnumConverter.Scan.Body

namespace EnumConverter.Source

theorem Token.exists_comment {token : Token} (h : token.isComment = true) :
    ∃ comment, token.kind = .comment comment := by
  obtain ⟨kind, position⟩ := token
  cases kind <;> simp_all [isComment, comment?]

end EnumConverter.Source

namespace EnumConverter.Scan

open Source

variable {token : Token} {rest tail : List Token} {name : String}

theorem skipAttributes_attribute {next : Token} {after : List Token}
    (hattribute : (afterAttribute? token rest).map skipComments = some (next :: after)) :
    skipAttributes (token :: rest) = skipAttributes (next :: after) := by
  rw [skipAttributes]
  split
  · rename_i heq
    rw [hattribute] at heq
    simp only [Option.some.injEq] at heq
    rw [heq]
  · rename_i hno
    exact absurd hattribute (hno next after)

theorem skipAttributes_stop
    (hstop : ∀ next after, (afterAttribute? token rest).map skipComments ≠ some (next :: after)) :
    skipAttributes (token :: rest) = token :: rest := by
  rw [skipAttributes]
  split
  · rename_i heq
    exact absurd heq (hstop _ _)
  · rfl

/-- A qualified name ends before a token that is no identifier and before a specifier. -/
theorem qualifiedName_stop (hstop : ∀ name, token.ident? = some name → name ∈ specifierWords) :
    qualifiedName (token :: rest) = ([], token :: rest) := by
  rw [qualifiedName]
  split
  · rfl
  · rename_i word hword
    rw [if_pos (hstop word hword)]

theorem qualifiedName_last (hident : token.ident? = some name) (hname : name ∉ specifierWords)
    (hlast : afterPathSeparator? (skipTemplateArguments (skipComments rest)) = none) :
    qualifiedName (token :: rest) = ([name], skipTemplateArguments (skipComments rest)) := by
  rw [qualifiedName]
  split
  · simp_all
  · rename_i word hword
    rw [hident, Option.some.injEq] at hword
    subst hword
    rw [if_neg hname]
    split
    · rfl
    · simp_all

theorem qualifiedName_more (hident : token.ident? = some name) (hname : name ∉ specifierWords)
    (hmore : afterPathSeparator? (skipTemplateArguments (skipComments rest)) = some tail) :
    qualifiedName (token :: rest) = (name :: (qualifiedName tail).1, (qualifiedName tail).2) := by
  rw [qualifiedName]
  split
  · simp_all
  · rename_i word hword
    rw [hident, Option.some.injEq] at hword
    subst hword
    rw [if_neg hname]
    split
    · simp_all
    · rename_i left hleft
      rw [hmore, Option.some.injEq] at hleft
      subst hleft
      rfl

/-- A name that is no specifier is read up to the mark behind it. -/
theorem qualifiedName_mark (hname : name ∉ specifierWords) {c : Char} (hc : c ≠ '<')
    (first second : Position) (rest : List Token) :
    qualifiedName (skipAttributes (⟨.ident name, first⟩ :: ⟨.punct c, second⟩ :: rest)) =
      ([name], ⟨.punct c, second⟩ :: rest) := by
  have hattribute : name ∉ attributeWords := fun hmem => hname (List.mem_cons_of_mem _ hmem)
  have hattributes : skipAttributes (⟨.ident name, first⟩ :: ⟨.punct c, second⟩ :: rest) =
      ⟨.ident name, first⟩ :: ⟨.punct c, second⟩ :: rest := by
    apply skipAttributes_stop
    simp [afterAttribute?, skipComments, Token.isComment, Token.comment?, Token.isPunct,
      Token.ident?, hattribute]
  have hend : skipTemplateArguments (skipComments (⟨.punct c, second⟩ :: rest)) =
      ⟨.punct c, second⟩ :: rest := by
    simp [skipTemplateArguments, skipComments, Token.isComment, Token.comment?, Token.isPunct, hc]
  rw [hattributes, qualifiedName_last rfl hname (by rw [hend]; rfl), hend]

theorem namespaceName_none (hident : token.ident? = none) :
    namespaceName (token :: rest) = ([], token :: rest) := by
  rw [namespaceName]
  split
  · rfl
  · simp_all

theorem namespaceName_inline (hident : token.ident? = some "inline") :
    namespaceName (token :: rest) = namespaceName (skipComments rest) := by
  rw [namespaceName]
  split
  · simp_all
  · rename_i word hword
    rw [hident, Option.some.injEq] at hword
    rw [if_pos hword.symm]

theorem namespaceName_last (hident : token.ident? = some name) (hname : name ≠ "inline")
    (hlast : afterPathSeparator? (skipComments rest) = none) :
    namespaceName (token :: rest) = ([name], skipComments rest) := by
  rw [namespaceName]
  split
  · simp_all
  · rename_i word hword
    rw [hident, Option.some.injEq] at hword
    subst hword
    rw [if_neg hname]
    split
    · rfl
    · simp_all

theorem namespaceName_more (hident : token.ident? = some name) (hname : name ≠ "inline")
    (hmore : afterPathSeparator? (skipComments rest) = some tail) :
    namespaceName (token :: rest) = (name :: (namespaceName tail).1, (namespaceName tail).2) := by
  rw [namespaceName]
  split
  · simp_all
  · rename_i word hword
    rw [hident, Option.some.injEq] at hword
    subst hword
    rw [if_neg hname]
    split
    · simp_all
    · rename_i left hleft
      rw [hmore, Option.some.injEq] at hleft
      subst hleft
      rfl

section Body

variable {state : BodyState}

theorem readBody_comment {comment : Comment} (hcomment : token.comment? = some comment) :
    readBody state (token :: rest) =
      readBody (state.onComment comment token.position.line) rest := by
  rw [readBody, hcomment]

theorem readBody_close (hdepth : state.depth = 0) (hcode : token.comment? = none)
    (hbrace : token.isPunct '\x7d' = true) :
    readBody state (token :: rest) = ⟨state.enumerators.reverse, true, rest⟩ := by
  rw [readBody, hcode]
  simp [hdepth, hbrace]

theorem readBody_stop (hdepth : state.depth = 0) (hcode : token.comment? = none)
    (hbrace : token.isPunct '\x7d' = false) (hsemicolon : token.isPunct ';' = true) :
    readBody state (token :: rest) = ⟨state.enumerators.reverse, false, token :: rest⟩ := by
  rw [readBody, hcode]
  simp [hdepth, hbrace, hsemicolon]

theorem readBody_code (hcode : token.comment? = none)
    (hinside : state.depth = 0 → token.isPunct '\x7d' = false ∧ token.isPunct ';' = false) :
    readBody state (token :: rest) =
      readBody (state.onCode token (skipComments rest).head?) rest := by
  rw [readBody, hcode]
  by_cases hdepth : state.depth = 0
  · simp [hdepth, hinside hdepth]
  · simp [hdepth]

end Body

end EnumConverter.Scan
