import EnumConverter.Proofs.Indexed.Name
import EnumConverter.Scan.Body

namespace EnumConverter.Scan

open Source

section Readers

variable (tokens : List Token)

/-- The last token in front of an index that is not a comment. -/
def previousCode : Nat → Checked (Option Token)
  | 0 => .ok none
  | index + 1 => do
    let token ← Checked.item tokens index
    if token.isComment then previousCode index else .ok (some token)

/-- Whether the `<` at an index opens template arguments. -/
def opensTemplateAt (index : Nat) : Checked Bool := do
  let previous ← previousCode tokens index
  let operator ← match ← nextCode tokens (index + 1) with
    | none => .ok false
    | some next => do
      let token ← Checked.item tokens next
      .ok (token.isPunct '<' || token.isPunct '=')
  .ok (previous.any (·.ident?.isSome) && !operator)

/-- The state after the token at an index that is no comment and does not end the body. -/
def onCodeAt (state : BodyState) (index : Nat) (token : Token) : Checked BodyState :=
  if token.isPunct '<' then
    if state.depth = 0 && !state.expectsName then do
      let opens ← opensTemplateAt tokens index
      .ok { state with angles := if opens then state.angles + 1 else state.angles, afterIdent := false }
    else .ok { state with afterIdent := false }
  else if token.isPunct '>' then
    if state.depth = 0 && 0 < state.angles then do
      let angles ← Checked.decrease state.angles
      .ok { state with angles, afterIdent := false }
    else .ok { state with afterIdent := false }
  else .ok (state.onCode token none)

/-- One token of a body. -/
def bodyRound (state : BodyState) (index : Nat) (token : Token) :
    Checked (Round BodyState (List RawEnumerator × Bool × Nat)) :=
  match token.comment? with
  | some comment => .ok (.next (state.onComment comment token.position.line) (index + 1))
  | none =>
    if state.depth = 0 && token.isPunct '\x7d' then
      .ok (.done (state.enumerators.reverse, true, index + 1))
    else if state.depth = 0 && token.isPunct ';' then
      .ok (.done (state.enumerators.reverse, false, index))
    else (.next · (index + 1)) <$> onCodeAt tokens state index token

/-- The enumerators of the body at an index, whether its closing brace was found, and where reading
goes on. -/
def bodyAt : BodyState → Nat → Checked (List RawEnumerator × Bool × Nat) :=
  loop tokens (fun state _ => .ok (state.enumerators.reverse, false, tokens.length)) (bodyRound tokens)

/-- Whether the last token in front of `rest` that is not a comment is an identifier. -/
def behindIdent (rest : List Token) : Bool :=
  ((tokens.take (offset tokens rest)).reverse.find? (!·.isComment)).any (·.ident?.isSome)

end Readers

variable {tokens rest : List Token} {token : Token}

theorem previousCode_eq {index : Nat} (h : index ≤ tokens.length) :
    previousCode tokens index = .ok ((tokens.take index).reverse.find? (!·.isComment)) := by
  induction index with
  | zero => rfl
  | succ index ih =>
    have hlast : (tokens.take (index + 1)).reverse = tokens[index] :: (tokens.take index).reverse := by
      rw [List.take_succ_eq_append_getElem h, List.reverse_append]
      rfl
    have hitem : Checked.item tokens index = .ok tokens[index] := by
      rw [Checked.item, List.getElem?_eq_getElem h]
    rw [previousCode, hitem, Checked.ok_bind, hlast, ih (Nat.le_of_lt h)]
    by_cases hcomment : tokens[index].isComment
    · rw [if_pos hcomment, List.find?_cons_of_neg (by simp [hcomment])]
    · rw [if_neg hcomment, List.find?_cons_of_pos (by simp [hcomment])]

theorem behindIdent_tail (h : token :: rest <:+ tokens) :
    behindIdent tokens rest =
      if token.isComment then behindIdent tokens (token :: rest) else token.ident?.isSome := by
  have hlast : (tokens.take (offset tokens rest)).reverse =
      token :: (tokens.take (offset tokens (token :: rest))).reverse := by
    rw [← offset_cons h, List.take_add_one, getElem?_offset h, List.reverse_append]
    rfl
  rw [behindIdent, hlast]
  by_cases hcomment : token.isComment
  · rw [if_pos hcomment, List.find?_cons_of_neg (by simp [hcomment]), behindIdent]
  · rw [if_neg hcomment, List.find?_cons_of_pos (by simp [hcomment]), Option.any_some]

theorem behindIdent_of_punct {c : Char} (h : token :: rest <:+ tokens) (hpunct : token.isPunct c = true) :
    behindIdent tokens rest = false := by
  have hkind : token.kind = .punct c := by simpa [Token.isPunct] using hpunct
  simp [behindIdent_tail h, Token.isComment, Token.comment?, Token.ident?, hkind]

theorem opensTemplateAt_offset {state : BodyState} (h : token :: rest <:+ tokens)
    (hbehind : state.afterIdent = behindIdent tokens (token :: rest)) :
    opensTemplateAt tokens (offset tokens (token :: rest)) =
      .ok (state.opensTemplate (skipComments rest).head?) := by
  have hrest := (List.suffix_cons token rest).trans h
  have hskip := (skipComments_suffix rest).trans hrest
  rw [opensTemplateAt, previousCode_eq (offset_le ..), offset_cons h, nextCode_offset hrest,
    BodyState.opensTemplate, hbehind, behindIdent]
  cases hnext : skipComments rest with
  | nil => rfl
  | cons next after =>
    rw [hnext] at hskip
    simp [item_offset hskip]

namespace BodyState

/-- Only a `<` asks for what stands behind it. -/
theorem onCode_next (state : BodyState) (hangle : token.isPunct '<' = false) (next : Option Token) :
    state.onCode token next = state.onCode token none := by
  have hkind : token.kind ≠ .punct '<' := by simpa [Token.isPunct] using hangle
  unfold onCode
  dsimp only
  split <;> first | rfl | contradiction

theorem afterIdent_onComment (state : BodyState) (comment : Comment) (line : Nat) :
    (state.onComment comment line).afterIdent = state.afterIdent := by
  unfold onComment
  split
  · rfl
  · split <;> rfl

theorem afterIdent_onCode (state : BodyState) (token : Token) (next : Option Token) :
    (state.onCode token next).afterIdent = token.ident?.isSome := rfl

end BodyState

theorem onCodeAt_offset {state : BodyState} (h : token :: rest <:+ tokens)
    (hbehind : state.afterIdent = behindIdent tokens (token :: rest)) :
    onCodeAt tokens state (offset tokens (token :: rest)) token =
      .ok (state.onCode token (skipComments rest).head?) := by
  have hopens := opensTemplateAt_offset h hbehind
  obtain ⟨kind, position⟩ := token
  unfold onCodeAt
  by_cases hopen : kind = .punct '<'
  · subst hopen
    rw [if_pos (by simp [Token.isPunct])]
    by_cases hlevel : state.depth = 0 && !state.expectsName
    · rw [if_pos hlevel, hopens, Checked.ok_bind]
      by_cases htemplate : state.opensTemplate (skipComments rest).head? <;>
        simp [BodyState.onCode, hlevel, htemplate, Token.ident?]
    · rw [if_neg hlevel]
      simp [BodyState.onCode, hlevel, Token.ident?]
  have hless : (Token.mk kind position).isPunct '<' = false := by simp [Token.isPunct, hopen]
  rw [if_neg (by simp [hless])]
  by_cases hclose : kind = .punct '>'
  · subst hclose
    rw [if_pos (by simp [Token.isPunct])]
    by_cases hdepth : state.depth = 0
    · cases hangles : state.angles <;>
        simp [BodyState.onCode, hdepth, hangles, Checked.decrease, Token.ident?]
    · simp [BodyState.onCode, hdepth, Token.ident?]
  · rw [if_neg (by simp [Token.isPunct, hclose]), ← state.onCode_next hless (skipComments rest).head?]

theorem bodyAt_offset (state : BodyState) (h : rest <:+ tokens)
    (hbehind : state.afterIdent = behindIdent tokens rest) :
    bodyAt tokens state (offset tokens rest) =
      .ok ((readBody state rest).enumerators, (readBody state rest).closed,
        offset tokens (readBody state rest).rest) := by
  fun_induction readBody state rest with
  | case1 state => exact loop_nil
  | case2 state token rest comment hcomment ih =>
    have hrest := (List.suffix_cons token rest).trans h
    refine (loop_next h List.suffix_rfl ?_).trans (ih hrest ?_)
    · simp [bodyRound, hcomment, offset_cons h]
    · have hcomment' : token.isComment = true := by simp [Token.isComment, hcomment]
      rw [state.afterIdent_onComment, hbehind, behindIdent_tail h, if_pos hcomment']
  | case3 state token rest hcode hclose =>
    refine loop_done h ?_
    simp only [bodyRound, hcode]
    rw [if_pos hclose, offset_cons h]
  | case4 state token rest hcode hclose hstop =>
    refine loop_done h ?_
    simp only [bodyRound, hcode]
    rw [if_neg hclose, if_pos hstop]
  | case5 state token rest hcode hclose hstop ih =>
    have hrest := (List.suffix_cons token rest).trans h
    refine (loop_next h List.suffix_rfl ?_).trans (ih hrest ?_)
    · simp only [bodyRound, hcode]
      rw [if_neg hclose, if_neg hstop, onCodeAt_offset h hbehind, offset_cons h]
      rfl
    · have hcode' : ¬ token.isComment = true := by simp [Token.isComment, hcode]
      rw [behindIdent_tail h, if_neg hcode', state.afterIdent_onCode]

end EnumConverter.Scan
