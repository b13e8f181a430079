import EnumConverter.Proofs.Statement.Nested
import EnumConverter.Scan.Outline

namespace EnumConverter.Scan

open Source

variable {tokens rest : List Token} {token : Token} (more : List Token)

theorem isPunct_of_ident? {name : String} (h : token.ident? = some name) (c : Char) :
    token.isPunct c = false := by
  obtain ⟨kind, position⟩ := token
  cases kind <;> simp_all [Token.ident?, Token.isPunct]

theorem skipComments_append (h : WellEnded tokens) :
    skipComments (tokens ++ more) = skipComments tokens ++ more := by
  have hne : (tokens.dropWhile Token.isComment).isEmpty = false :=
    List.isEmpty_eq_false_iff.2 h.skipComments.ne_nil
  rw [skipComments, List.dropWhile_append, hne]
  rfl

theorem afterGroup?_append {opening closing : Char} {inner : Nat}
    (h : afterGroup? opening closing inner tokens = some rest) :
    afterGroup? opening closing inner (tokens ++ more) = some (rest ++ more) := by
  fun_induction afterGroup? opening closing inner tokens with
  | case1 => simp at h
  | case2 inner token tail hopening ih => simp [afterGroup?, hopening, ih h]
  | case3 token tail hopening hclosing => simp_all [afterGroup?]
  | case4 token tail hopening hclosing inner ih => simp [afterGroup?, hopening, hclosing, ih h]
  | case5 inner token tail hopening hclosing ih =>
    rw [List.cons_append, afterGroup?.eq_def]
    simp [hopening, hclosing, ih h]

/-- A group that is not closed by a semicolon leaves the last one. -/
theorem WellEnded.afterGroup? (h : WellEnded tokens) {opening closing : Char} {inner : Nat}
    (hclosing : closing ≠ ';') (hgroup : afterGroup? opening closing inner tokens = some rest) :
    WellEnded rest := by
  have hmore {token : Token} {tail : List Token} {inner : Nat} (h : WellEnded (token :: tail))
      (hgroup : Scan.afterGroup? opening closing inner tail = some rest) : WellEnded tail :=
    h.suffix (List.suffix_cons ..) (by rintro rfl; simp [Scan.afterGroup?] at hgroup)
  fun_induction Scan.afterGroup? opening closing inner tokens with
  | case1 => simp at hgroup
  | case2 inner token tail hopening ih => exact ih (hmore h hgroup) hgroup
  | case3 token tail hopening hend =>
    obtain rfl : tail = rest := by simpa using hgroup
    have hkind : token.kind = .punct closing := by simpa [Token.isPunct] using hend
    exact h.tail_of_kind hkind (by simpa using hclosing)
  | case4 token tail hopening hend inner ih => exact ih (hmore h hgroup) hgroup
  | case5 inner token tail hopening hend ih => exact ih (hmore h hgroup) hgroup

/-- Behind an opening bracket stands the bracket that closes it, and a statement behind that. -/
theorem WellEnded.group (h : WellEnded (token :: rest)) {pair : Char × Char}
    (hpair : pair ∈ bracketPairs) (htoken : token.isPunct pair.1 = true) :
    ∃ after, Scan.afterGroup? pair.1 pair.2 0 rest = some after ∧ WellEnded after := by
  have hmarks : ∀ pair ∈ bracketPairs, pair.1 ≠ ';' ∧ pair.2 ≠ ';' ∧ pair.1 ≠ pair.2 := by decide
  obtain ⟨hopening, hclosing, hne⟩ := hmarks pair hpair
  have hkind : token.kind = .punct pair.1 := by simpa [Token.isPunct] using htoken
  obtain ⟨stack, hnested⟩ := h.nested
  obtain ⟨inner, hinner, hcount⟩ := count_nested_cons hpair hnested
  have hopen : 0 < inner.count pair.2 := by simp [Token.isPunct, hkind, hne] at hcount; omega
  obtain ⟨after, hafter⟩ := afterGroup?_of_nested hpair hinner hopen
  have hrest : WellEnded rest := h.tail_of_kind hkind (by simpa using hopening)
  exact ⟨after, hafter, hrest.afterGroup? hclosing hafter⟩

/-- An attribute is read in the same way before a sequel, or none is. -/
theorem afterAttribute?_append (h : WellEnded (token :: rest)) :
    afterAttribute? token rest = none ∧ afterAttribute? token (rest ++ more) = none ∨
      ∃ after, WellEnded after ∧ afterAttribute? token rest = some after ∧
        afterAttribute? token (rest ++ more) = some (after ++ more) := by
  by_cases hsemicolon : token.isPunct ';' = true
  · have hkind : token.kind = .punct ';' := by simpa [Token.isPunct] using hsemicolon
    have hnone (tail : List Token) : afterAttribute? token tail = none := by
      unfold afterAttribute?
      split <;> simp [Token.isPunct, Token.ident?, hkind]
    exact .inl ⟨hnone _, hnone _⟩
  · have hrest : WellEnded rest := h.tail (by simpa using hsemicolon)
    have hskip := hrest.skipComments
    unfold afterAttribute?
    rw [skipComments_append more hrest]
    cases hargs : skipComments rest with
    | nil => exact absurd hargs hskip.ne_nil
    | cons next args =>
      rw [hargs] at hskip
      simp only [List.cons_append]
      split
      · rename_i hopening
        obtain ⟨htoken, -⟩ : token.isPunct '[' = true ∧ next.isPunct '[' = true := by
          simpa using hopening
        obtain ⟨after, hafter, hended⟩ := h.group (show ('[', ']') ∈ bracketPairs by decide) htoken
        exact .inr ⟨after, hended, hafter, afterGroup?_append more hafter⟩
      split
      · rename_i hopening
        obtain ⟨-, hnext⟩ := Bool.and_eq_true_iff.1 hopening
        obtain ⟨after, hafter, hended⟩ := hskip.group (show ('(', ')') ∈ bracketPairs by decide) hnext
        exact .inr ⟨after, hended, hafter, afterGroup?_append more hafter⟩
      · exact .inl ⟨rfl, rfl⟩

theorem skipAttributes_append (h : WellEnded tokens) :
    WellEnded (skipAttributes tokens) ∧
      skipAttributes (tokens ++ more) = skipAttributes tokens ++ more := by
  fun_induction skipAttributes tokens with
  | case1 => exact absurd rfl h.ne_nil
  | case2 token rest next after hattribute ih =>
    obtain ⟨tail, htail, hskip⟩ := Option.map_eq_some_iff.1 hattribute
    obtain ⟨hnone, -⟩ | ⟨found, hfound, hread, happend⟩ := afterAttribute?_append more h
    · simp [hnone] at htail
    · obtain rfl : found = tail := by simpa [hread] using htail
      have hended := hfound.skipComments
      rw [hskip] at hended
      obtain ⟨hleft, hsame⟩ := ih hended
      refine ⟨hleft, ?_⟩
      rw [← hsame, List.cons_append, List.cons_append]
      apply skipAttributes_attribute
      rw [happend, Option.map_some, skipComments_append more hfound, hskip, List.cons_append]
  | case3 token rest hstop =>
    refine ⟨h, ?_⟩
    obtain ⟨-, hnone⟩ | ⟨found, hfound, hread, -⟩ := afterAttribute?_append more h
    · exact skipAttributes_stop (by simp [hnone])
    · -- Comments never take all of what follows an attribute.
      obtain ⟨next, after, hskip⟩ := List.exists_cons_of_ne_nil hfound.skipComments.ne_nil
      exact absurd (by rw [hread, Option.map_some, hskip]) (hstop next after)

theorem skipTemplateArguments_append (h : WellEnded tokens)
    (hends : skipTemplateArguments tokens ≠ []) :
    skipTemplateArguments (tokens ++ more) = skipTemplateArguments tokens ++ more := by
  cases tokens with
  | nil => exact absurd rfl h.ne_nil
  | cons token rest =>
    simp only [List.cons_append, skipTemplateArguments] at hends ⊢
    split
    · rename_i hopening
      rw [if_pos hopening] at hends
      cases hgroup : afterGroup? '<' '>' 0 rest with
      | none => simp [hgroup] at hends
      | some after =>
        have hkind : token.kind = .punct '<' := by simpa [Token.isPunct] using hopening
        have hrest : WellEnded rest := h.tail_of_kind hkind (by simp)
        have hafter : WellEnded after := hrest.afterGroup? (by decide) hgroup
        rw [afterGroup?_append more hgroup, Option.map_some, Option.map_some, Option.getD_some,
          Option.getD_some, skipComments_append more hafter]
    · rfl

theorem afterPathSeparator?_append (h : WellEnded tokens) :
    afterPathSeparator? (tokens ++ more) = (afterPathSeparator? tokens).map (· ++ more) ∧
      ∀ tail, afterPathSeparator? tokens = some tail → WellEnded tail := by
  cases tokens with
  | nil => exact absurd rfl h.ne_nil
  | cons token rest =>
    simp only [List.cons_append, afterPathSeparator?]
    split
    · rename_i hkind
      have hrest : WellEnded rest := h.tail_of_kind hkind (by simp)
      refine ⟨by rw [skipComments_append more hrest, Option.map_some], ?_⟩
      rintro tail ⟨⟩
      exact hrest.skipComments
    · exact ⟨rfl, by simp⟩

theorem qualifiedName_append (h : WellEnded tokens) (hends : (qualifiedName tokens).2 ≠ []) :
    qualifiedName (tokens ++ more) = ((qualifiedName tokens).1, (qualifiedName tokens).2 ++ more) := by
  fun_induction qualifiedName tokens with
  | case1 => exact absurd rfl h.ne_nil
  | case2 token rest hident => exact qualifiedName_stop (by simp [hident])
  | case3 token rest name hident hname =>
    exact qualifiedName_stop (by simpa [hident] using hname)
  | case4 token rest name hident hname hlast =>
    have hrest := (h.tail (isPunct_of_ident? hident _)).skipComments
    have hsame : skipTemplateArguments (skipComments (rest ++ more)) =
        skipTemplateArguments (skipComments rest) ++ more := by
      rw [skipComments_append more (h.tail (isPunct_of_ident? hident _)),
        skipTemplateArguments_append more hrest hends]
    have hleft : WellEnded (skipTemplateArguments (skipComments rest)) :=
      hrest.suffix (skipTemplateArguments_suffix _) hends
    rw [List.cons_append, qualifiedName_last hident hname, hsame]
    rw [hsame, (afterPathSeparator?_append more hleft).1, hlast, Option.map_none]
  | case5 token rest name hident hname tail hmore names left hread ih =>
    have hrest := (h.tail (isPunct_of_ident? hident _)).skipComments
    have hnonempty : skipTemplateArguments (skipComments rest) ≠ [] := by
      intro hnil
      simp [hnil, afterPathSeparator?] at hmore
    have hsame : skipTemplateArguments (skipComments (rest ++ more)) =
        skipTemplateArguments (skipComments rest) ++ more := by
      rw [skipComments_append more (h.tail (isPunct_of_ident? hident _)),
        skipTemplateArguments_append more hrest hnonempty]
    obtain ⟨hseparator, hended⟩ := afterPathSeparator?_append more
      (hrest.suffix (skipTemplateArguments_suffix _) hnonempty)
    have htail : afterPathSeparator? (skipTemplateArguments (skipComments (rest ++ more))) =
        some (tail ++ more) := by
      rw [hsame, hseparator, hmore, Option.map_some]
    rw [List.cons_append, qualifiedName_more hident hname htail, ih (hended tail hmore) (by rwa [hread]),
      hread]

theorem bodyOrEnd_append {depth : Nat} (hends : bodyOrEnd depth tokens ≠ []) :
    bodyOrEnd depth (tokens ++ more) = bodyOrEnd depth tokens ++ more := by
  fun_induction bodyOrEnd depth tokens with
  | case1 => simp at hends
  | case2 depth token rest hopening ih => simp [bodyOrEnd, hopening, ih hends]
  | case3 depth token rest hopening hclosing ih => simp [bodyOrEnd, hopening, hclosing, ih hends]
  | case4 depth token rest hopening hclosing hend =>
    rw [List.cons_append, bodyOrEnd, if_neg hopening, if_neg hclosing, if_pos hend]
  | case5 depth token rest hopening hclosing hend ih =>
    rw [List.cons_append, bodyOrEnd, if_neg hopening, if_neg hclosing, if_neg hend, ih hends]

theorem skipBaseClause_append (h : WellEnded tokens) :
    WellEnded (skipBaseClause tokens) ∧
      skipBaseClause (tokens ++ more) = skipBaseClause tokens ++ more := by
  cases tokens with
  | nil => exact absurd rfl h.ne_nil
  | cons token rest =>
    simp only [List.cons_append, skipBaseClause]
    split
    · rename_i hcolon
      have hkind : token.kind = .punct ':' := by simpa [Token.isPunct] using hcolon
      have hrest : WellEnded rest := h.tail_of_kind hkind (by simp)
      obtain ⟨stack, hnested⟩ := hrest.nested
      have hne := bodyOrEnd_ne_nil hnested hrest.last (Nat.zero_le _)
      exact ⟨hrest.suffix (bodyOrEnd_suffix ..) hne, bodyOrEnd_append more hne⟩
    · exact ⟨h, rfl⟩

theorem skipWord_append (word : String) (h : WellEnded tokens) :
    WellEnded (skipWord word tokens) ∧
      skipWord word (tokens ++ more) = skipWord word tokens ++ more := by
  cases tokens with
  | nil => exact absurd rfl h.ne_nil
  | cons token rest =>
    simp only [List.cons_append, skipWord]
    split
    · rename_i hword
      have hkind : token.kind = .ident word := by simpa [Token.isIdent] using hword
      have hrest : WellEnded rest := h.tail_of_kind hkind (by simp)
      exact ⟨hrest.skipComments, skipComments_append more hrest⟩
    · exact ⟨h, rfl⟩

theorem afterOpenBrace?_append (h : WellEnded tokens) :
    afterOpenBrace? (tokens ++ more) = (afterOpenBrace? tokens).map (· ++ more) := by
  cases tokens with
  | nil => exact absurd rfl h.ne_nil
  | cons token rest =>
    simp only [List.cons_append, afterOpenBrace?]
    split <;> rfl

theorem namespaceName_append (h : WellEnded tokens) :
    WellEnded (namespaceName tokens).2 ∧
      namespaceName (tokens ++ more) = ((namespaceName tokens).1, (namespaceName tokens).2 ++ more) := by
  fun_induction namespaceName tokens with
  | case1 => exact absurd rfl h.ne_nil
  | case2 token rest hident => exact ⟨h, namespaceName_none hident⟩
  | case3 token rest hident ih =>
    have hrest := h.tail (isPunct_of_ident? hident _)
    obtain ⟨hleft, hsame⟩ := ih hrest.skipComments
    refine ⟨hleft, ?_⟩
    rw [List.cons_append, namespaceName_inline hident, skipComments_append more hrest, hsame]
  | case4 token rest name hident hname hlast =>
    have hrest := h.tail (isPunct_of_ident? hident _)
    refine ⟨hrest.skipComments, ?_⟩
    have hseparator := (afterPathSeparator?_append more hrest.skipComments).1
    rw [List.cons_append, namespaceName_last hident hname, skipComments_append more hrest]
    rw [skipComments_append more hrest, hseparator, hlast, Option.map_none]
  | case5 token rest name hident hname tail hmore names left hread ih =>
    have hrest := h.tail (isPunct_of_ident? hident _)
    obtain ⟨hseparator, hended⟩ := afterPathSeparator?_append more hrest.skipComments
    obtain ⟨hleft, hsame⟩ := ih (hended tail hmore)
    rw [hread] at hleft hsame
    refine ⟨hleft, ?_⟩
    have htail : afterPathSeparator? (skipComments (rest ++ more)) = some (tail ++ more) := by
      rw [skipComments_append more hrest, hseparator, hmore, Option.map_some]
    rw [List.cons_append, namespaceName_more hident hname htail, hsame]

end EnumConverter.Scan
