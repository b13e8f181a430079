import EnumConverter.Proofs.Scan.Equation

namespace EnumConverter.Scan

open Source

/-- The tokens that are not comments. -/
def withoutComments (tokens : List Token) : List Token :=
  tokens.filter (!·.isComment)

/-- Whether no comment stands in front. -/
def CodeFirst (tokens : List Token) : Prop :=
  ∀ token ∈ tokens.head?, token.isComment = false

@[simp] theorem withoutComments_nil : withoutComments [] = [] := rfl

theorem withoutComments_cons_comment {token : Token} (h : token.isComment = true)
    (rest : List Token) : withoutComments (token :: rest) = withoutComments rest := by
  simp [withoutComments, h]

theorem withoutComments_cons_code {token : Token} (h : token.isComment = false)
    (rest : List Token) : withoutComments (token :: rest) = token :: withoutComments rest := by
  simp [withoutComments, h]

@[simp] theorem withoutComments_withoutComments (tokens : List Token) :
    withoutComments (withoutComments tokens) = withoutComments tokens := by
  simp [withoutComments]

@[simp] theorem codeFirst_nil : CodeFirst [] := by simp [CodeFirst]

@[simp] theorem codeFirst_cons {token : Token} {rest : List Token} :
    CodeFirst (token :: rest) ↔ token.isComment = false := by
  simp [CodeFirst]

theorem codeFirst_skipComments (tokens : List Token) : CodeFirst (skipComments tokens) := by
  intro token htoken
  have hhead := List.head?_dropWhile_not Token.isComment tokens
  unfold skipComments at htoken
  rw [Option.mem_def.1 htoken] at hhead
  simpa using hhead

@[simp] theorem withoutComments_skipComments (tokens : List Token) :
    withoutComments (skipComments tokens) = withoutComments tokens := by
  induction tokens with
  | nil => rfl
  | cons token rest ih =>
    cases htoken : token.isComment with
    | false => simp [skipComments, htoken]
    | true =>
      rw [withoutComments_cons_comment htoken, ← ih]
      simp [skipComments, htoken]

@[simp] theorem skipComments_withoutComments (tokens : List Token) :
    skipComments (withoutComments tokens) = withoutComments tokens := by
  cases hcode : withoutComments tokens with
  | nil => rfl
  | cons token rest =>
    have hmem : token ∈ withoutComments tokens := by simp [hcode]
    have htoken : token.isComment = false := by
      simpa using (List.mem_filter.1 hmem).2
    simp [skipComments, htoken]

theorem isPunct_of_isComment {token : Token} (h : token.isComment = true) (c : Char) :
    token.isPunct c = false := by
  obtain ⟨kind, position⟩ := token
  cases kind <;> simp_all [Token.isComment, Token.comment?, Token.isPunct]

theorem isComment_of_isPunct {token : Token} {c : Char} (h : token.isPunct c = true) :
    token.isComment = false := by
  cases htoken : token.isComment with
  | false => rfl
  | true => simp [isPunct_of_isComment htoken] at h

theorem afterGroup?_withoutComments (opening closing : Char) (inner : Nat) (tokens : List Token) :
    afterGroup? opening closing inner (withoutComments tokens) =
      (afterGroup? opening closing inner tokens).map withoutComments := by
  fun_induction afterGroup? opening closing inner tokens with
  | case1 => rfl
  | case2 inner token rest hopening ih =>
    rw [withoutComments_cons_code (isComment_of_isPunct hopening), ← ih, afterGroup?.eq_def]
    simp [hopening]
  | case3 token rest hopening hclosing =>
    rw [withoutComments_cons_code (isComment_of_isPunct hclosing), afterGroup?.eq_def]
    simp [hopening, hclosing]
  | case4 token rest hopening hclosing inner ih =>
    rw [withoutComments_cons_code (isComment_of_isPunct hclosing), ← ih, afterGroup?.eq_def]
    simp [hopening, hclosing]
  | case5 inner token rest hopening hclosing ih =>
    cases htoken : token.isComment with
    | true => rw [withoutComments_cons_comment htoken, ih]
    | false =>
      rw [withoutComments_cons_code htoken, ← ih, afterGroup?.eq_def]
      simp [hopening, hclosing]

theorem bodyOrEnd_withoutComments (depth : Nat) (tokens : List Token) :
    bodyOrEnd depth (withoutComments tokens) = withoutComments (bodyOrEnd depth tokens) := by
  induction tokens generalizing depth with
  | nil => rfl
  | cons token rest ih =>
    cases htoken : token.isComment with
    | true =>
      rw [withoutComments_cons_comment htoken, ih, bodyOrEnd]
      simp [isPunct_of_isComment htoken]
    | false =>
      rw [withoutComments_cons_code htoken, bodyOrEnd, bodyOrEnd]
      split
      · exact ih _
      split
      · exact ih _
      split
      · exact (withoutComments_cons_code htoken rest).symm
      · exact ih _

theorem codeFirst_bodyOrEnd (depth : Nat) (tokens : List Token) :
    CodeFirst (bodyOrEnd depth tokens) := by
  fun_induction bodyOrEnd depth tokens with
  | case1 => simp
  | case2 _ _ _ _ ih | case3 _ _ _ _ _ ih | case5 _ _ _ _ _ _ ih => exact ih
  | case4 depth token rest _ _ hend =>
    obtain ⟨-, hbrace | hsemicolon⟩ :
        depth = 0 ∧ (token.isPunct '\x7b' = true ∨ token.isPunct ';' = true) := by simpa using hend
    · exact codeFirst_cons.2 (isComment_of_isPunct hbrace)
    · exact codeFirst_cons.2 (isComment_of_isPunct hsemicolon)

/-- The token in front of what follows comments is the same without the comments. -/
theorem withoutComments_eq_cons {tokens rest : List Token} {token : Token}
    (h : skipComments tokens = token :: rest) :
    token.isComment = false ∧ withoutComments tokens = token :: withoutComments rest := by
  have hfirst := codeFirst_skipComments tokens
  rw [h, codeFirst_cons] at hfirst
  exact ⟨hfirst, by rw [← withoutComments_skipComments, h, withoutComments_cons_code hfirst]⟩

theorem afterAttribute?_withoutComments (token : Token) (rest : List Token) :
    afterAttribute? token (withoutComments rest) =
      (afterAttribute? token rest).map withoutComments := by
  unfold afterAttribute?
  rw [skipComments_withoutComments]
  cases hskip : skipComments rest with
  | nil =>
    have hcode : withoutComments rest = [] := by rw [← withoutComments_skipComments, hskip]; rfl
    simp [hcode]
  | cons next args =>
    obtain ⟨-, hcode⟩ := withoutComments_eq_cons hskip
    rw [hcode]
    dsimp only
    split
    · rw [← hcode, afterGroup?_withoutComments]
    split
    · rw [afterGroup?_withoutComments]
    · rfl

theorem skipAttributes_withoutComments {tokens : List Token} (h : CodeFirst tokens) :
    CodeFirst (skipAttributes tokens) ∧
      skipAttributes (withoutComments tokens) = withoutComments (skipAttributes tokens) := by
  fun_induction skipAttributes tokens with
  | case1 => exact ⟨codeFirst_nil, by simp [skipAttributes]⟩
  | case2 token rest next after hskip ih =>
    obtain ⟨tail, hattribute, htail⟩ := Option.map_eq_some_iff.1 hskip
    obtain ⟨hnext, hcode⟩ := withoutComments_eq_cons htail
    obtain ⟨hfirst, hrest⟩ := ih (codeFirst_cons.2 hnext)
    refine ⟨hfirst, ?_⟩
    rw [withoutComments_cons_code (codeFirst_cons.1 h), ← hrest, withoutComments_cons_code hnext]
    apply skipAttributes_attribute
    rw [afterAttribute?_withoutComments, hattribute, Option.map_some, Option.map_some,
      skipComments_withoutComments, hcode]
  | case3 token rest hstop =>
    refine ⟨h, ?_⟩
    rw [withoutComments_cons_code (codeFirst_cons.1 h)]
    apply skipAttributes_stop
    intro next after hskip
    rw [afterAttribute?_withoutComments, Option.map_map] at hskip
    obtain ⟨tail, hattribute, htail⟩ := Option.map_eq_some_iff.1 hskip
    rw [Function.comp_apply, skipComments_withoutComments] at htail
    -- What follows the attribute without comments also follows it behind comments.
    cases hafter : skipComments tail with
    | nil =>
      rw [← withoutComments_skipComments, hafter] at htail
      simp at htail
    | cons first others => exact hstop first others (by rw [hattribute, Option.map_some, hafter])

theorem skipTemplateArguments_withoutComments {tokens : List Token} (h : CodeFirst tokens) :
    CodeFirst (skipTemplateArguments tokens) ∧
      skipTemplateArguments (withoutComments tokens) =
        withoutComments (skipTemplateArguments tokens) := by
  cases tokens with
  | nil => exact ⟨codeFirst_nil, rfl⟩
  | cons token rest =>
    rw [withoutComments_cons_code (codeFirst_cons.1 h)]
    unfold skipTemplateArguments
    dsimp only
    split
    · rw [afterGroup?_withoutComments]
      cases afterGroup? '<' '>' 0 rest with
      | none => exact ⟨codeFirst_nil, rfl⟩
      | some after => exact ⟨codeFirst_skipComments after, by simp⟩
    · exact ⟨h, (withoutComments_cons_code (codeFirst_cons.1 h) rest).symm⟩

theorem afterPathSeparator?_withoutComments {tokens : List Token} (h : CodeFirst tokens) :
    (∀ tail, afterPathSeparator? tokens = some tail → CodeFirst tail) ∧
      afterPathSeparator? (withoutComments tokens) =
        (afterPathSeparator? tokens).map withoutComments := by
  cases tokens with
  | nil => exact ⟨by simp [afterPathSeparator?], rfl⟩
  | cons token rest =>
    rw [withoutComments_cons_code (codeFirst_cons.1 h)]
    unfold afterPathSeparator?
    dsimp only
    split
    · refine ⟨?_, by simp⟩
      rintro tail ⟨⟩
      exact codeFirst_skipComments rest
    · exact ⟨by simp, rfl⟩

theorem qualifiedName_withoutComments {tokens : List Token} (h : CodeFirst tokens) :
    CodeFirst (qualifiedName tokens).2 ∧
      qualifiedName (withoutComments tokens) =
        ((qualifiedName tokens).1, withoutComments (qualifiedName tokens).2) := by
  fun_induction qualifiedName tokens with
  | case1 => exact ⟨codeFirst_nil, by simp [qualifiedName]⟩
  | case2 token rest hident =>
    refine ⟨h, ?_⟩
    rw [withoutComments_cons_code (codeFirst_cons.1 h)]
    exact qualifiedName_stop (by simp [hident])
  | case3 token rest name hident hname =>
    refine ⟨h, ?_⟩
    rw [withoutComments_cons_code (codeFirst_cons.1 h)]
    exact qualifiedName_stop (by simpa [hident] using hname)
  | case4 token rest name hident hname hlast =>
    obtain ⟨hfirst, harguments⟩ := skipTemplateArguments_withoutComments (codeFirst_skipComments rest)
    obtain ⟨-, hseparator⟩ := afterPathSeparator?_withoutComments hfirst
    rw [withoutComments_skipComments] at harguments
    refine ⟨hfirst, ?_⟩
    rw [withoutComments_cons_code (codeFirst_cons.1 h), ← harguments]
    rw [qualifiedName_last hident hname, skipComments_withoutComments]
    rw [skipComments_withoutComments, harguments, hseparator, hlast, Option.map_none]
  | case5 token rest name hident hname tail hmore names left hread ih =>
    obtain ⟨hfirst, harguments⟩ := skipTemplateArguments_withoutComments (codeFirst_skipComments rest)
    obtain ⟨htail, hseparator⟩ := afterPathSeparator?_withoutComments hfirst
    rw [withoutComments_skipComments] at harguments
    obtain ⟨hleft, hrest⟩ := ih (htail tail hmore)
    rw [hread] at hleft hrest
    refine ⟨hleft, ?_⟩
    have hmore' : afterPathSeparator? (skipTemplateArguments (skipComments (withoutComments rest))) =
        some (withoutComments tail) := by
      rw [skipComments_withoutComments, harguments, hseparator, hmore, Option.map_some]
    rw [withoutComments_cons_code (codeFirst_cons.1 h), qualifiedName_more hident hname hmore', hrest]

theorem namespaceName_withoutComments {tokens : List Token} (h : CodeFirst tokens) :
    CodeFirst (namespaceName tokens).2 ∧
      namespaceName (withoutComments tokens) =
        ((namespaceName tokens).1, withoutComments (namespaceName tokens).2) := by
  fun_induction namespaceName tokens with
  | case1 => exact ⟨codeFirst_nil, by simp [namespaceName]⟩
  | case2 token rest hident =>
    refine ⟨h, ?_⟩
    rw [withoutComments_cons_code (codeFirst_cons.1 h)]
    exact namespaceName_none hident
  | case3 token rest hident ih =>
    obtain ⟨hfirst, hrest⟩ := ih (codeFirst_skipComments rest)
    rw [withoutComments_skipComments] at hrest
    refine ⟨hfirst, ?_⟩
    rw [withoutComments_cons_code (codeFirst_cons.1 h), namespaceName_inline hident,
      skipComments_withoutComments, hrest]
  | case4 token rest name hident hname hlast =>
    obtain ⟨-, hseparator⟩ := afterPathSeparator?_withoutComments (codeFirst_skipComments rest)
    refine ⟨codeFirst_skipComments rest, ?_⟩
    rw [withoutComments_skipComments, hlast] at hseparator
    rw [withoutComments_cons_code (codeFirst_cons.1 h), namespaceName_last hident hname,
      skipComments_withoutComments, withoutComments_skipComments]
    rw [skipComments_withoutComments, hseparator, Option.map_none]
  | case5 token rest name hident hname tail hmore names left hread ih =>
    obtain ⟨htail, hseparator⟩ := afterPathSeparator?_withoutComments (codeFirst_skipComments rest)
    obtain ⟨hleft, hrest⟩ := ih (htail tail hmore)
    rw [hread] at hleft hrest
    rw [withoutComments_skipComments, hmore] at hseparator
    refine ⟨hleft, ?_⟩
    have hmore' : afterPathSeparator? (skipComments (withoutComments rest)) =
        some (withoutComments tail) := by
      rw [skipComments_withoutComments, hseparator, Option.map_some]
    rw [withoutComments_cons_code (codeFirst_cons.1 h), namespaceName_more hident hname hmore', hrest]

theorem skipBaseClause_withoutComments {tokens : List Token} (h : CodeFirst tokens) :
    CodeFirst (skipBaseClause tokens) ∧
      skipBaseClause (withoutComments tokens) = withoutComments (skipBaseClause tokens) := by
  cases tokens with
  | nil => exact ⟨codeFirst_nil, rfl⟩
  | cons token rest =>
    rw [withoutComments_cons_code (codeFirst_cons.1 h)]
    unfold skipBaseClause
    dsimp only
    split
    · exact ⟨codeFirst_bodyOrEnd 0 rest, bodyOrEnd_withoutComments 0 rest⟩
    · exact ⟨h, (withoutComments_cons_code (codeFirst_cons.1 h) rest).symm⟩

theorem skipWord_withoutComments (word : String) {tokens : List Token} (h : CodeFirst tokens) :
    CodeFirst (skipWord word tokens) ∧
      skipWord word (withoutComments tokens) = withoutComments (skipWord word tokens) := by
  cases tokens with
  | nil => exact ⟨codeFirst_nil, rfl⟩
  | cons token rest =>
    rw [withoutComments_cons_code (codeFirst_cons.1 h)]
    unfold skipWord
    dsimp only
    split
    · exact ⟨codeFirst_skipComments rest, by simp⟩
    · exact ⟨h, (withoutComments_cons_code (codeFirst_cons.1 h) rest).symm⟩

theorem afterOpenBrace?_withoutComments {tokens : List Token} (h : CodeFirst tokens) :
    afterOpenBrace? (withoutComments tokens) = (afterOpenBrace? tokens).map withoutComments := by
  cases tokens with
  | nil => rfl
  | cons token rest =>
    rw [withoutComments_cons_code (codeFirst_cons.1 h)]
    unfold afterOpenBrace?
    dsimp only
    split
    · rfl
    · rfl

end EnumConverter.Scan
