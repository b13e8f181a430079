import Mathlib.Data.List.TakeWhile
import EnumConverter.Proofs.CommentFree.Name
import EnumConverter.Proofs.Scan.Visit

namespace EnumConverter.Scan

open Source

/-- Whether a declaration can start behind a token. -/
def opensDeclaration (token : Token) : Bool :=
  [';', '\x7b', '\x7d', ':'].any (token.isPunct ·)

theorem opensDeclaration_punct {token : Token} {c : Char} (h : token.isPunct c = true)
    (hc : c ∉ [';', '\x7b', '\x7d', ':']) : opensDeclaration token = false := by
  obtain ⟨kind, position⟩ := token
  obtain rfl : kind = .punct c := of_decide_eq_true h
  simp only [List.mem_cons, List.not_mem_nil, or_false, not_or] at hc
  simp [opensDeclaration, Token.isPunct, hc]

theorem opensDeclaration_ident {token : Token} {name : String} (h : token.ident? = some name) :
    opensDeclaration token = false := by
  simp [opensDeclaration, Token.isPunct, Token.kind_of_ident? h]

/-- Whether tokens end, comments apart, with none behind which a declaration can start. -/
def Quiet (passed : List Token) : Prop :=
  ∀ token ∈ (withoutComments passed).getLast?, opensDeclaration token = false

theorem quiet_nil : Quiet [] := by
  simp [Quiet]

theorem quiet_comments {passed : List Token} (h : ∀ token ∈ passed, token.isComment = true) :
    Quiet passed := by
  have hnone : withoutComments passed = [] := by
    rw [withoutComments, List.filter_eq_nil_iff]
    intro token htoken
    simp [h token htoken]
  simp [Quiet, hnone]

theorem quiet_singleton {token : Token} (h : opensDeclaration token = false) : Quiet [token] := by
  intro other hother
  obtain rfl : token = other := by
    by_cases hcode : token.isComment = true
    · simp [withoutComments, hcode] at hother
    · simpa [withoutComments, hcode] using hother
  exact h

theorem Quiet.append {first second : List Token} (hfirst : Quiet first) (hsecond : Quiet second) :
    Quiet (first ++ second) := by
  intro token htoken
  rw [withoutComments, List.filter_append, List.getLast?_append] at htoken
  obtain htoken | ⟨-, htoken⟩ := Option.or_eq_some_iff.1 (Option.mem_def.1 htoken)
  · exact hsecond token htoken
  · exact hfirst token htoken

/-- Code that closes a group is what counts of the group. -/
theorem quiet_concat (front : List Token) {last : Token} (hcode : last.isComment = false)
    (h : opensDeclaration last = false) : Quiet (front ++ [last]) := by
  intro token htoken
  have hlast : withoutComments (front ++ [last]) = withoutComments front ++ [last] := by
    simp [withoutComments, hcode]
  obtain rfl : last = token := by simpa [hlast] using htoken
  exact h

/-- A reader goes from some tokens to others. It comes to the end, or what it passes over is quiet. -/
def Skips (tokens rest : List Token) : Prop :=
  rest = [] ∨ ∃ passed, tokens = passed ++ rest ∧ Quiet passed

theorem Skips.refl (tokens : List Token) : Skips tokens tokens :=
  .inr ⟨[], rfl, quiet_nil⟩

theorem Skips.trans {first second third : List Token} (h : Skips first second)
    (h' : Skips second third) : Skips first third := by
  obtain rfl | ⟨passed, rfl, hpassed⟩ := h
  · obtain rfl | ⟨more, hmore, -⟩ := h'
    · exact .inl rfl
    · exact .inl (List.append_eq_nil_iff.1 hmore.symm).2
  · obtain rfl | ⟨more, rfl, hmore⟩ := h'
    · exact .inl rfl
    · exact .inr ⟨passed ++ more, by rw [List.append_assoc], hpassed.append hmore⟩

/-- A reader that starts with a token behind which no declaration can start. -/
theorem Skips.cons {token : Token} (htoken : opensDeclaration token = false) {rest left : List Token}
    (h : Skips rest left) : Skips (token :: rest) left :=
  Skips.trans (.inr ⟨[token], rfl, quiet_singleton htoken⟩) h

theorem skipComments_skips (tokens : List Token) : Skips tokens (skipComments tokens) := by
  refine .inr ⟨tokens.takeWhile Token.isComment, List.takeWhile_append_dropWhile.symm, ?_⟩
  exact quiet_comments fun token htoken => List.mem_takeWhile_imp htoken

/-- A group ends with its closing token. -/
theorem afterGroup?_closing {opening closing : Char} {inner : Nat} {tokens rest : List Token}
    (h : afterGroup? opening closing inner tokens = some rest) :
    ∃ front last, tokens = front ++ last :: rest ∧ last.isPunct closing = true := by
  fun_induction afterGroup? opening closing inner tokens with
  | case1 => simp at h
  | case2 inner token tokens _ ih | case4 token tokens _ _ inner ih | case5 inner token tokens _ _ ih =>
    obtain ⟨front, last, rfl, hlast⟩ := ih h
    exact ⟨token :: front, last, rfl, hlast⟩
  | case3 token tokens _ hclosing =>
    obtain rfl : tokens = rest := by simpa using h
    exact ⟨[], token, rfl, hclosing⟩

theorem afterGroup?_skips {opening closing : Char} (hclosing : closing ∉ [';', '\x7b', '\x7d', ':'])
    {inner : Nat} {tokens rest : List Token} (h : afterGroup? opening closing inner tokens = some rest) :
    Skips tokens rest := by
  obtain ⟨front, last, rfl, hlast⟩ := afterGroup?_closing h
  refine .inr ⟨front ++ [last], by rw [List.append_assoc]; rfl, ?_⟩
  exact quiet_concat front (isComment_of_isPunct hlast) (opensDeclaration_punct hlast hclosing)

theorem afterAttribute?_skips {token : Token} {rest left : List Token}
    (h : afterAttribute? token rest = some left) : Skips (token :: rest) left := by
  unfold afterAttribute? at h
  split at h
  · simp at h
  · rename_i next args hargs
    split at h
    · rename_i hbracket
      obtain ⟨htoken, -⟩ : token.isPunct '[' = true ∧ next.isPunct '[' = true := by
        simpa using hbracket
      exact .cons (opensDeclaration_punct htoken (by decide)) (afterGroup?_skips (by decide) h)
    split at h
    · rename_i hword
      obtain ⟨⟨name, hname, -⟩, hnext⟩ : (∃ name, token.ident? = some name ∧ name ∈ attributeWords) ∧
          next.isPunct '(' = true := by simpa [Option.any_eq_true] using hword
      have hskip := skipComments_skips rest
      rw [hargs] at hskip
      have hgroup : Skips (next :: args) left :=
        .cons (opensDeclaration_punct hnext (by decide)) (afterGroup?_skips (by decide) h)
      exact .cons (opensDeclaration_ident hname) (hskip.trans hgroup)
    · simp at h

theorem skipAttributes_skips (tokens : List Token) : Skips tokens (skipAttributes tokens) := by
  fun_induction skipAttributes tokens with
  | case1 => exact .refl []
  | case2 token rest next after h ih =>
    obtain ⟨tail, hattribute, hskip⟩ := Option.map_eq_some_iff.1 h
    have htail := (afterAttribute?_skips hattribute).trans (skipComments_skips tail)
    rw [hskip] at htail
    exact htail.trans ih
  | case3 => exact .refl _

theorem skipTemplateArguments_skips (tokens : List Token) :
    Skips tokens (skipTemplateArguments tokens) := by
  unfold skipTemplateArguments
  split
  · exact .refl []
  · rename_i token rest
    split
    · rename_i hopen
      cases hgroup : afterGroup? '<' '>' 0 rest with
      | none => exact .inl rfl
      | some after =>
        exact .cons (opensDeclaration_punct hopen (by decide))
          ((afterGroup?_skips (by decide) hgroup).trans (skipComments_skips after))
    · exact .refl _

theorem afterPathSeparator?_skips {tokens rest : List Token}
    (h : afterPathSeparator? tokens = some rest) : Skips tokens rest := by
  unfold afterPathSeparator? at h
  split at h
  · simp at h
  · rename_i token after
    split at h
    · rename_i hkind
      obtain rfl : skipComments after = rest := by simpa using h
      have hquiet : opensDeclaration token = false := by
        simp [opensDeclaration, Token.isPunct, hkind]
      exact .cons hquiet (skipComments_skips after)
    · simp at h

theorem qualifiedName_skips (tokens : List Token) : Skips tokens (qualifiedName tokens).2 := by
  fun_induction qualifiedName tokens with
  | case1 => exact .refl _
  | case2 => exact .refl _
  | case3 => exact .refl _
  | case4 token rest name hident =>
    exact .cons (opensDeclaration_ident hident)
      ((skipComments_skips rest).trans (skipTemplateArguments_skips _))
  | case5 token rest name hident _ tail htail names left hread ih =>
    rw [hread] at ih
    have hname := (skipComments_skips rest).trans (skipTemplateArguments_skips _)
    exact .cons (opensDeclaration_ident hident)
      (hname.trans ((afterPathSeparator?_skips htail).trans ih))

theorem namespaceName_skips (tokens : List Token) : Skips tokens (namespaceName tokens).2 := by
  fun_induction namespaceName tokens with
  | case1 => exact .refl _
  | case2 => exact .refl _
  | case3 token rest hident ih =>
    exact .cons (opensDeclaration_ident hident) ((skipComments_skips rest).trans ih)
  | case4 token rest name hident =>
    exact .cons (opensDeclaration_ident hident) (skipComments_skips rest)
  | case5 token rest name hident _ tail htail names left hread ih =>
    rw [hread] at ih
    exact .cons (opensDeclaration_ident hident)
      ((skipComments_skips rest).trans ((afterPathSeparator?_skips htail).trans ih))

theorem skipWord_skips (word : String) (tokens : List Token) : Skips tokens (skipWord word tokens) := by
  unfold skipWord
  split
  · exact .refl []
  · rename_i token rest
    split
    · rename_i hword
      exact .cons (opensDeclaration_ident (Token.ident?_of_isIdent hword)) (skipComments_skips rest)
    · exact .refl _

theorem readEnumKey_skips (tokens : List Token) : Skips tokens (readEnumKey tokens).2 := by
  unfold readEnumKey
  split
  · exact .refl []
  · rename_i token rest
    split
    · rename_i hkey
      have hident : ∃ name, token.ident? = some name := by
        obtain hkey | hkey := Bool.or_eq_true_iff.1 hkey
        · exact ⟨_, Token.ident?_of_isIdent hkey⟩
        · exact ⟨_, Token.ident?_of_isIdent hkey⟩
      obtain ⟨name, hname⟩ := hident
      exact .cons (opensDeclaration_ident hname) (skipComments_skips rest)
    · exact .refl _

end EnumConverter.Scan
