import EnumConverter.Proofs.CommentFree.Outline
import EnumConverter.Proofs.Scan.Provenance
import EnumConverter.Proofs.Statement.Nested

namespace EnumConverter.Scan

open Source

variable (state : BodyState) {token : Token} {next : Option Token}

/-- The state after a token that only the next `<` asks about. -/
def BodyState.behind (state : BodyState) (token : Token) : BodyState :=
  { state with afterIdent := token.ident?.isSome }

/-- Whether a token is no bracket, no angle, no comma and no semicolon. -/
def isPlain (token : Token) : Bool :=
  ['(', ')', '[', ']', '\x7b', '\x7d', ',', ';', '<', '>'].all (!token.isPunct ·)

theorem BodyState.onCode_plain (hnamed : state.expectsName = false) (h : isPlain token = true) :
    state.onCode token next = state.behind token := by
  obtain ⟨kind, position⟩ := token
  cases kind with
  | punct c =>
    simp [isPlain, Token.isPunct] at h
    simp [onCode, behind, h]
  | _ => simp [onCode, behind, hnamed]

theorem BodyState.onCode_opening {pair : Char × Char} (hpair : pair ∈ bracketPairs)
    (h : token.kind = .punct pair.1) :
    state.onCode token next = { state with depth := state.depth + 1, afterIdent := false } := by
  simp only [bracketPairs, List.mem_cons, List.not_mem_nil, or_false] at hpair
  obtain rfl | rfl | rfl := hpair <;> simp [onCode, Token.ident?, h]

theorem BodyState.onCode_closing {pair : Char × Char} (hpair : pair ∈ bracketPairs)
    (h : token.kind = .punct pair.2) :
    state.onCode token next = { state with depth := state.depth - 1, afterIdent := false } := by
  simp only [bracketPairs, List.mem_cons, List.not_mem_nil, or_false] at hpair
  obtain rfl | rfl | rfl := hpair <;> simp [onCode, Token.ident?, h]

/-- Inside brackets only brackets count. -/
theorem BodyState.onCode_inside (hdepth : state.depth ≠ 0)
    (h : ∀ pair ∈ bracketPairs, token.kind ≠ .punct pair.1 ∧ token.kind ≠ .punct pair.2) :
    state.onCode token next = state.behind token := by
  simp only [bracketPairs, List.forall_mem_cons] at h
  unfold onCode behind
  dsimp only
  split <;> simp_all

/-- A piece of a body takes its reader from one state to another, whatever follows the piece. -/
def Leads (before : BodyState) (piece : List Token) (after : BodyState) : Prop :=
  ∀ rest, readBody before (piece ++ rest) = readBody after rest

theorem Leads.nil : Leads state [] state :=
  fun _ => rfl

theorem Leads.append {before between after : BodyState} {first second : List Token}
    (hfirst : Leads before first between) (hsecond : Leads between second after) :
    Leads before (first ++ second) after := by
  intro rest
  rw [List.append_assoc, hfirst, hsecond]

theorem leads_token {after : BodyState} (hcode : token.isComment = false)
    (hinside : state.depth = 0 → token.isPunct '\x7d' = false ∧ token.isPunct ';' = false)
    (h : ∀ next, state.onCode token next = after) : Leads state [token] after := by
  intro rest
  rw [List.singleton_append, readBody_code (isComment_eq_false_iff.1 hcode) hinside, h]

theorem leads_plain (hcode : token.isComment = false) (hnamed : state.expectsName = false)
    (h : isPlain token = true) : Leads state [token] (state.behind token) := by
  refine leads_token state hcode (fun _ => ?_) fun _ => state.onCode_plain hnamed h
  simp only [isPlain, List.all_cons, Bool.and_eq_true, Bool.not_eq_true'] at h
  exact ⟨h.2.2.2.2.2.1, h.2.2.2.2.2.2.2.1⟩

/-- Tokens between two brackets of one kind, with all brackets among them properly nested. -/
inductive Enclosed (pair : Char × Char) : List Token → Prop
  | group {opening closing : Token} {inner : List Token} (hopening : opening.kind = .punct pair.1)
      (hclosing : closing.kind = .punct pair.2) (hinner : nested [] inner = true) :
      Enclosed pair (opening :: inner ++ [closing])

/-- Nested brackets inside brackets that are still open, of which `depth + 1` stay open. -/
theorem leads_nested {stack : List Char} {tokens : List Token} (depth : Nat)
    (h : nested stack tokens = true) (hcode : ∀ token ∈ tokens, token.isComment = false)
    (hdepth : state.depth = stack.length + (depth + 1)) :
    ∃ afterIdent, Leads state tokens { state with depth := depth + 1, afterIdent } := by
  induction tokens generalizing stack state with
  | nil =>
    have hstack : stack = [] := by simpa [nested] using h
    have hsame : state.depth = depth + 1 := by simpa [hstack] using hdepth
    exact ⟨state.afterIdent, hsame ▸ Leads.nil state⟩
  | cons token rest ih =>
    obtain ⟨htoken, hrest⟩ := List.forall_mem_cons.1 hcode
    have hinside : state.depth = 0 → token.isPunct '\x7d' = false ∧ token.isPunct ';' = false := by
      omega
    obtain ⟨pair, hpair, hkind, hstack⟩ | ⟨pair, hpair, outer, hkind, rfl, hstack⟩ |
      ⟨hnone, hstack⟩ := nested_cons h
    · have hfirst := leads_token state htoken hinside fun _ => state.onCode_opening hpair hkind
      obtain ⟨afterIdent, hmore⟩ := ih { state with depth := state.depth + 1, afterIdent := false } hstack
        hrest (by simp [hdepth]; omega)
      exact ⟨afterIdent, hfirst.append hmore⟩
    · have hfirst := leads_token state htoken hinside fun _ => state.onCode_closing hpair hkind
      obtain ⟨afterIdent, hmore⟩ := ih { state with depth := state.depth - 1, afterIdent := false } hstack
        hrest (by simp [hdepth]; omega)
      exact ⟨afterIdent, hfirst.append hmore⟩
    · have hfirst := leads_token state htoken hinside fun _ =>
        state.onCode_inside (by omega) hnone
      obtain ⟨afterIdent, hmore⟩ := ih (state.behind token) hstack hrest hdepth
      exact ⟨afterIdent, hfirst.append hmore⟩

/-- A group leaves nothing behind, wherever it stands. -/
theorem leads_group {pair : Char × Char} (hpair : pair ∈ bracketPairs) {group : List Token}
    (h : Enclosed pair group) (hcode : ∀ token ∈ group, token.isComment = false) :
    Leads state group { state with afterIdent := false } := by
  obtain ⟨hopening, hclosing, hinner⟩ := h
  rename_i opening closing inner
  simp only [List.cons_append, List.forall_mem_cons, List.forall_mem_append] at hcode
  obtain ⟨hopen, hinside, hclose, -⟩ := hcode
  have hmarks : ∀ pair ∈ bracketPairs, pair.1 ≠ '\x7d' ∧ pair.1 ≠ ';' ∧ pair.2 ≠ ';' := by decide
  have hfirst : Leads state [opening] { state with depth := state.depth + 1, afterIdent := false } :=
    leads_token state hopen (fun _ => by simp [Token.isPunct, hopening, hmarks pair hpair])
      fun _ => state.onCode_opening hpair hopening
  obtain ⟨afterIdent, hmiddle⟩ :=
    leads_nested { state with depth := state.depth + 1, afterIdent := false } state.depth hinner
      hinside (by simp)
  have hlast := leads_token { state with depth := state.depth + 1, afterIdent } hclose (by simp)
    fun _ => BodyState.onCode_closing _ hpair hclosing
  exact (hfirst.append hmiddle).append hlast

theorem isComment_of_mem_withoutComments {tokens : List Token} :
    ∀ token ∈ withoutComments tokens, token.isComment = false :=
  fun token htoken => by simpa using (List.mem_filter.1 htoken).2

/-- Where code comes last, only nothing has no code. -/
theorem eq_nil_of_withoutComments {front front' between : List Token}
    (h : front ++ [token] = front' ++ between) (hcode : token.isComment = false)
    (hnone : withoutComments between = []) : between = [] := by
  obtain rfl | ⟨inner, last, rfl⟩ := List.eq_nil_or_concat between
  · rfl
  · have hlast : token = last := by
      rw [List.concat_eq_append, ← List.append_assoc] at h
      simpa using (List.append_inj' h rfl).2
    subst hlast
    simp [withoutComments, hcode] at hnone

/-- The closing brace of a body that has one stands in front of what the body leaves. -/
theorem exists_closing_of_closed (tokens : List Token)
    (h : (readBody state tokens).closed = true) :
    ∃ front closing, closing.isPunct '\x7d' = true ∧
      tokens = front ++ closing :: (readBody state tokens).rest := by
  fun_induction readBody state tokens with
  | case1 => simp at h
  | case2 state token rest comment _ ih | case5 state token rest _ _ _ ih =>
    obtain ⟨front, closing, hclosing, hrest⟩ := ih h
    exact ⟨token :: front, closing, hclosing, congrArg (token :: ·) hrest⟩
  | case3 state token rest _ hclosing =>
    rw [Bool.and_eq_true] at hclosing
    exact ⟨[], token, hclosing.2, rfl⟩
  | case4 => simp at h

/-- What is read of a body without its comments is read of the body. -/
theorem readBody_of_withoutComments {body : List Token} (rest : List Token) {closing : Token}
    {found : List RawEnumerator} (hclosing : closing.isPunct '\x7d' = true)
    (h : ∀ rest, readBody {} (withoutComments body ++ closing :: rest) = ⟨found, true, rest⟩) :
    (readBody {} (body ++ closing :: rest)).enumerators.map (some ·.word) =
        found.map (some ·.word) ∧
      (readBody {} (body ++ closing :: rest)).closed = true ∧
      (readBody {} (body ++ closing :: rest)).rest = rest := by
  have hcode := isComment_of_isPunct hclosing
  have htokens : withoutComments (body ++ closing :: rest) =
      withoutComments body ++ closing :: withoutComments rest := by
    simp [withoutComments, hcode]
  have hsame := readBody_withoutComments (rfl : BodyState.bare {} = BodyState.bare {})
    (body ++ closing :: rest)
  rw [htokens, h] at hsame
  generalize hread : readBody {} (body ++ closing :: rest) = read at hsame ⊢
  obtain ⟨hfound, hclosed, hrest⟩ := Body.mk.inj hsame
  have hwords (enumerators : List RawEnumerator) :
      enumerators.map (some ·.word) = (enumerators.map RawEnumerator.bare).map (some ·.word) := by
    rw [List.map_map]
    rfl
  refine ⟨by rw [hwords, hwords found, hfound], hclosed.symm, ?_⟩
  obtain ⟨front, last, hlast, htail⟩ := exists_closing_of_closed {}
    (body ++ closing :: rest) (by rw [hread]; exact hclosed.symm)
  rw [hread, List.append_cons, List.append_cons front] at htail
  rw [withoutComments_withoutComments] at hrest
  -- Only comments could stand between the two places, but each of them stands behind code.
  obtain ⟨between, hfront, rfl⟩ | ⟨between, hfront, hbetween⟩ := List.append_eq_append_iff.1 htail
  · have hnone : withoutComments between = [] := by simpa [withoutComments] using hrest
    rw [eq_nil_of_withoutComments hfront (isComment_of_isPunct hlast) hnone, List.nil_append]
  · have hnone : withoutComments between = [] := by
      simpa [withoutComments, hbetween] using hrest.symm
    rw [hbetween, eq_nil_of_withoutComments hfront hcode hnone, List.nil_append]

end EnumConverter.Scan
