import EnumConverter.Proofs.Document.Block
import EnumConverter.Proofs.Document.Passing

namespace EnumConverter.Scan

open Source

/-- Whether tokens are at their end or start with a mark that is neither a comment nor a keyword. -/
def AtMark (rest : List Token) : Prop :=
  ∀ token ∈ rest.head?, token.isPunct '\x7b' = true ∨ token.isPunct ';' = true

theorem atMark_nil : AtMark [] := by
  simp [AtMark]

theorem AtMark.isComment {token : Token} {rest : List Token} (h : AtMark (token :: rest)) :
    token.isComment = false := by
  obtain hmark | hmark := h token rfl
  · exact isComment_of_isPunct hmark
  · exact isComment_of_isPunct hmark

theorem AtMark.ident? {token : Token} {rest : List Token} (h : AtMark (token :: rest)) :
    token.ident? = none := by
  have hpunct {c : Char} (hmark : token.isPunct c = true) : token.ident? = none := by
    obtain ⟨kind, position⟩ := token
    obtain rfl : kind = .punct c := of_decide_eq_true hmark
    rfl
  obtain hmark | hmark := h token rfl
  · exact hpunct hmark
  · exact hpunct hmark

/-- Reading goes on at a mark, right behind code, or behind something quiet. -/
def Settles (tokens rest : List Token) : Prop :=
  AtMark rest ∨ ∃ passed, tokens = passed ++ rest ∧
    (Quiet passed ∨ ∃ last ∈ passed.getLast?, last.isComment = false)

theorem Skips.settles {tokens rest : List Token} (h : Skips tokens rest) : Settles tokens rest := by
  obtain rfl | ⟨passed, hsplit, hquiet⟩ := h
  · exact .inl atMark_nil
  · exact .inr ⟨passed, hsplit, .inl hquiet⟩

theorem settles_behind {tokens rest : List Token} {token : Token} (hcode : token.isComment = false)
    (h : token :: rest <:+ tokens) : Settles tokens rest := by
  obtain ⟨front, rfl⟩ := h
  exact .inr ⟨front ++ [token], by rw [List.append_assoc]; rfl, .inr ⟨token, by simp, hcode⟩⟩

theorem Skips.trans_settles {first second third : List Token} (h : Skips first second)
    (h' : Settles second third) : Settles first third := by
  obtain hmark | ⟨more, hmore, hlast⟩ := h'
  · exact .inl hmark
  obtain rfl | ⟨passed, rfl, hpassed⟩ := h
  · obtain ⟨-, rfl⟩ := List.append_eq_nil_iff.1 hmore.symm
    exact .inl atMark_nil
  · refine .inr ⟨passed ++ more, by rw [hmore, List.append_assoc], ?_⟩
    obtain hquiet | ⟨last, hlast, hcode⟩ := hlast
    · exact .inl (hpassed.append hquiet)
    · refine .inr ⟨last, ?_, hcode⟩
      rw [List.getLast?_append, hlast]
      rfl

theorem bodyOrEnd_atMark (depth : Nat) (tokens : List Token) : AtMark (bodyOrEnd depth tokens) := by
  fun_induction bodyOrEnd depth tokens with
  | case1 => exact atMark_nil
  | case2 _ _ _ _ ih | case3 _ _ _ _ _ ih | case5 _ _ _ _ _ _ ih => exact ih
  | case4 depth token rest _ _ hend =>
    intro other hother
    obtain rfl : token = other := by simpa using hother
    simp only [Bool.and_eq_true, Bool.or_eq_true] at hend
    exact hend.2

theorem skipBaseClause_settles (tokens : List Token) : Settles tokens (skipBaseClause tokens) := by
  unfold skipBaseClause
  split
  · exact .inl atMark_nil
  · split
    · exact .inl (bodyOrEnd_atMark 0 _)
    · exact (Skips.refl _).settles

theorem afterOpenBrace?_brace {tokens body : List Token} (h : afterOpenBrace? tokens = some body) :
    ∃ brace, brace.isComment = false ∧ tokens = brace :: body := by
  unfold afterOpenBrace? at h
  split at h
  · simp at h
  · rename_i token rest
    split at h
    · rename_i hbrace
      obtain rfl : rest = body := by simpa using h
      exact ⟨token, isComment_of_isPunct hbrace, rfl⟩
    · simp at h

theorem readBody_settles (state : BodyState) (tokens : List Token) :
    AtMark (readBody state tokens).rest ∨
      ∃ last, last.isComment = false ∧ last :: (readBody state tokens).rest <:+ tokens := by
  fun_induction readBody state tokens with
  | case1 => exact .inl atMark_nil
  | case2 _ token _ _ _ ih | case5 _ token _ _ _ _ ih =>
    obtain hmark | ⟨last, hcode, hsuffix⟩ := ih
    · exact .inl hmark
    · exact .inr ⟨last, hcode, hsuffix.trans (List.suffix_cons token _)⟩
  | case3 state token rest _ hclosing =>
    have hbrace : token.isPunct '\x7d' = true := by
      simp only [Bool.and_eq_true] at hclosing
      exact hclosing.2
    exact .inr ⟨token, isComment_of_isPunct hbrace, List.suffix_rfl⟩
  | case4 state token rest _ _ hsemicolon =>
    refine .inl fun other hother => .inr ?_
    obtain rfl : token = other := by simpa using hother
    simp only [Bool.and_eq_true] at hsemicolon
    exact hsemicolon.2

theorem readAlias_settles (tokens : List Token) :
    (readAlias tokens).2 = tokens ∨
      ∃ last, last.isComment = false ∧ last :: (readAlias tokens).2 <:+ tokens := by
  have hskip := skipComments_suffix tokens
  have hfirst := codeFirst_skipComments tokens
  unfold readAlias
  split
  · exact .inl rfl
  · rename_i token rest htokens
    rw [htokens] at hskip hfirst
    split
    · exact .inr ⟨token, codeFirst_cons.1 hfirst, hskip⟩
    · exact .inl rfl

theorem enterBody_settles {rest tokens : List Token} (hsuffix : tokens <:+ rest)
    (hsettles : Settles rest tokens) (scopes : ScopeStack) (segments : Scope) (line : Nat) :
    Settles rest (enterBody scopes segments line tokens).rest := by
  obtain ⟨body, hbody, h⟩ | h := enterBody_cases scopes segments line tokens
  · obtain ⟨brace, hcode, rfl⟩ := afterOpenBrace?_brace hbody
    exact h ▸ settles_behind hcode hsuffix
  · exact h ▸ hsettles

theorem readNamespace_settles (scopes : ScopeStack) (line : Nat) (rest : List Token) :
    Settles rest (readNamespace scopes line rest).rest := by
  rw [readNamespace_eq_enterBody]
  refine enterBody_settles ?_ ?_ ..
  · exact (namespaceName_suffix _).trans (skipComments_suffix rest)
  · exact ((skipComments_skips rest).trans (namespaceName_skips _)).settles

theorem readType_settles (scopes : ScopeStack) (line : Nat) (rest : List Token) :
    Settles rest (readType scopes line rest).rest := by
  have hname := ((skipComments_skips rest).trans (skipAttributes_skips _)).trans (qualifiedName_skips _)
  have hsuffix := (qualifiedName_suffix (skipAttributes (skipComments rest))).trans
    ((skipAttributes_suffix _).trans (skipComments_suffix rest))
  rw [readType_eq_enterBody]
  refine enterBody_settles ?_ ?_ ..
  · exact (skipBaseClause_suffix _).trans ((skipWord_suffix "final" _).trans hsuffix)
  · exact (hname.trans (skipWord_skips "final" _)).trans_settles (skipBaseClause_settles _)

theorem nameBehind_settles {rest inside : List Token} (hinside : inside <:+ rest) (isTypedef : Bool)
    (name : Option String) : Settles rest (nameBehind isTypedef name (readBody {} inside)).2 := by
  have hbody : (readBody {} inside).rest <:+ rest := (rest_readBody_suffix {} inside).trans hinside
  have hplain : Settles rest (readBody {} inside).rest := by
    obtain hmark | ⟨last, hcode, hlast⟩ := readBody_settles {} inside
    · exact .inl hmark
    · exact settles_behind hcode (hlast.trans hinside)
  obtain h | h := nameBehind_cases isTypedef name (readBody {} inside)
  · rw [h]
    obtain hsame | ⟨last, hcode, hlast⟩ := readAlias_settles (readBody {} inside).rest
    · exact hsame.symm ▸ hplain
    · exact settles_behind hcode (hlast.trans hbody)
  · rwa [h]

theorem readEnum_settles (state : ScanState) (position : Position) (isTypedef : Bool)
    (rest : List Token) : Settles rest (readEnum state position isTypedef rest).rest := by
  have hname := (((skipComments_skips rest).trans (readEnumKey_skips _)).trans
    (skipAttributes_skips _)).trans (qualifiedName_skips _)
  have hread := enumRead_readEnum state position isTypedef rest
  generalize readEnum state position isTypedef rest = result at hread ⊢
  cases hread with
  | passed hbody => exact hbody ▸ hname.trans_settles (skipBaseClause_settles _)
  | @defined _ brace inside hbody _ =>
    have hsuffix := enumBody_suffix rest
    rw [hbody] at hsuffix
    exact nameBehind_settles ((List.suffix_cons brace inside).trans hsuffix) _ _

theorem Enters.skips {position : Position} {after rest : List Token} {token : Token}
    (h : Enters position after token rest) : Skips (token :: rest) after := by
  have hword (word : String) (place : Position) {tokens : List Token} :
      Skips (⟨.ident word, place⟩ :: tokens) tokens := .cons (opensDeclaration_ident rfl) (.refl tokens)
  cases h with
  | keyword => exact hword "enum" position
  | @viaTypedef place rest hrest =>
    have hskip := skipComments_skips rest
    rw [hrest] at hskip
    exact ((hword "typedef" place).trans hskip).trans (hword "enum" position)

/-- A step that reads code settles. -/
theorem step_settles (state : ScanState) {token : Token} (htoken : token.isComment = false)
    (rest : List Token) : Settles (token :: rest) (step state token rest).rest := by
  have hword {word : String} (hident : token.ident? = some word) : Skips (token :: rest) rest :=
    .cons (opensDeclaration_ident hident) (.refl rest)
  have hadvance := advance_step state token rest
  generalize step state token rest = result at hadvance ⊢
  cases hadvance with
  | comment | opening | closing | unexpected | skipped => exact settles_behind htoken List.suffix_rfl
  | namespaceWord hident => exact (hword hident).trans_settles (readNamespace_settles ..)
  | typeWord _ hident => exact (hword hident).trans_settles (readType_settles ..)
  | enum henters => exact henters.skips.trans_settles (readEnum_settles ..)

/-- What the collector holds behind some tokens: if a declaration can start where the comments at their
end start, these comments and no others were shown to it. -/
def Collected (before : List Token) (doc : DocBlock) : Prop :=
  ∀ lead comments, before = lead ++ comments → (∀ token ∈ comments, token.isComment = true) →
    (∀ token ∈ lead.getLast?, opensDeclaration token = true) →
    doc = DocBlock.observeAll [] (placedComments comments)

theorem isComment_of_opensDeclaration {token : Token} (h : opensDeclaration token = true) :
    token.isComment = false := by
  simp only [opensDeclaration, List.any_eq_true] at h
  obtain ⟨c, -, hpunct⟩ := h
  exact isComment_of_isPunct hpunct

theorem collected_nil : Collected [] [] := by
  intro lead comments hsplit _ _
  obtain ⟨-, rfl⟩ := List.append_eq_nil_iff.1 hsplit.symm
  rfl

/-- One more comment is shown to the collector. -/
theorem Collected.concat {before : List Token} {doc : DocBlock} (h : Collected before doc)
    {token : Token} {comment : Comment} (hkind : token.kind = .comment comment) :
    Collected (before ++ [token]) (doc.observe comment token.position.line) := by
  have hcomment : token.isComment = true := by simp [Token.isComment, Token.comment?, hkind]
  intro lead comments hsplit hcomments hlead
  obtain rfl | ⟨front, last, rfl⟩ := comments.eq_nil_or_concat'
  · rw [List.append_nil] at hsplit
    have hopens := hlead token (by rw [← hsplit]; simp)
    rw [isComment_of_opensDeclaration hopens] at hcomment
    contradiction
  · rw [← List.append_assoc] at hsplit
    obtain ⟨hfront, hlast⟩ := List.append_inj' hsplit rfl
    obtain rfl : token = last := List.singleton_inj.1 hlast
    have hdoc := h lead front hfront (fun other hother => hcomments other (by simp [hother])) hlead
    have hplaced : placedComments (front ++ [token]) =
        placedComments front ++ [⟨comment, token.position.line⟩] := by
      simp [placedComments, Token.placedComment?, Token.comment?, hkind]
    rw [hplaced, DocBlock.observeAll_concat, hdoc]

/-- The last token of code is the one in front of the comments, behind which a declaration can start. -/
theorem opensDeclaration_last {lead comments : List Token}
    (hcomments : ∀ token ∈ comments, token.isComment = true)
    (hlead : ∀ token ∈ lead.getLast?, opensDeclaration token = true) :
    ∀ token ∈ (withoutComments (lead ++ comments)).getLast?, opensDeclaration token = true := by
  have hnone : withoutComments comments = [] := by
    rw [withoutComments, List.filter_eq_nil_iff]
    intro token htoken
    simp [hcomments token htoken]
  rw [withoutComments, List.filter_append]
  change ∀ token ∈ (withoutComments lead ++ withoutComments comments).getLast?, _
  rw [hnone, List.append_nil]
  obtain rfl | ⟨front, last, rfl⟩ := lead.eq_nil_or_concat'
  · simp
  · have hopens := hlead last (by simp)
    have hlast : withoutComments (front ++ [last]) = withoutComments front ++ [last] := by
      simp [withoutComments, isComment_of_opensDeclaration hopens]
    intro token htoken
    obtain rfl : last = token := by simpa [hlast] using htoken
    exact hopens

/-- Behind a step that read code there is nothing to hold. -/
theorem collected_of_settled (before : List Token) {passed : List Token}
    (hcode : ∃ token ∈ passed, token.isComment = false)
    (hpassed : Quiet passed ∨ ∃ last ∈ passed.getLast?, last.isComment = false) :
    Collected (before ++ passed) [] := by
  intro lead comments hsplit hcomments hlead
  obtain hquiet | ⟨last, hlast, hlastCode⟩ := hpassed
  · have hopens := opensDeclaration_last hcomments hlead
    rw [← hsplit, withoutComments, List.filter_append, List.getLast?_append] at hopens
    obtain ⟨token, htoken, htokenCode⟩ := hcode
    cases hend : (withoutComments passed).getLast? with
    | none =>
      have hmem : token ∈ withoutComments passed := List.mem_filter.2 ⟨htoken, by simp [htokenCode]⟩
      rw [List.getLast?_eq_none_iff.1 hend] at hmem
      contradiction
    | some last =>
      have hshut := hquiet last hend
      rw [withoutComments] at hend
      rw [hopens last (by rw [hend]; rfl)] at hshut
      contradiction
  · obtain rfl | ⟨front, other, rfl⟩ := comments.eq_nil_or_concat'
    · rfl
    · have hother : (before ++ passed).getLast? = some other := by rw [hsplit]; simp
      rw [List.getLast?_append, hlast, Option.some_or] at hother
      obtain rfl : last = other := Option.some.inj hother
      rw [hcomments last (by simp)] at hlastCode
      contradiction

/-- Wherever a scan stands, the collector holds what it should, or no enum can follow. -/
theorem collected_of_visits {tokens rest : List Token} {state : ScanState}
    (h : Visits tokens state rest) :
    ∃ before, tokens = before ++ rest ∧ (AtMark rest ∨ Collected before state.doc) := by
  induction h with
  | start => exact ⟨[], rfl, .inr collected_nil⟩
  | @step state token rest _ ih =>
    obtain ⟨before, hsplit, hdoc⟩ := ih
    cases hcomment : token.isComment with
    | true =>
      obtain ⟨comment, hkind⟩ := token.exists_comment hcomment
      rw [step_comment hkind]
      refine ⟨before ++ [token], by rw [hsplit, List.append_assoc]; rfl, .inr ?_⟩
      obtain hmark | hdoc := hdoc
      · rw [hmark.isComment] at hcomment
        contradiction
      · exact hdoc.concat hkind
    | false =>
      rw [doc_step state token rest hcomment]
      have hsuffix := step_suffix state token rest
      obtain hmark | ⟨passed, hpassed, hend⟩ := step_settles state hcomment rest
      · obtain ⟨more, hmore⟩ := hsuffix
        refine ⟨before ++ token :: more, ?_, .inl hmark⟩
        rw [hsplit, List.append_assoc, List.cons_append, hmore]
      · refine ⟨before ++ passed, by rw [hsplit, hpassed, List.append_assoc], .inr ?_⟩
        refine collected_of_settled before ⟨token, ?_, hcomment⟩ hend
        cases passed with
        | nil =>
          have hlength := hsuffix.length_le
          rw [List.nil_append] at hpassed
          rw [← hpassed, List.length_cons] at hlength
          omega
        | cons first passed =>
          obtain ⟨rfl, -⟩ := List.cons.inj hpassed
          simp

/-- An enum is entered at `keyword`, the `typedef` in front of its word `enum` if it is read as part of an
alias and that word itself otherwise, with `before` and `after` around it in the source. -/
structure Entered (source : String) (raw : RawEnum) (before : List Token) (keyword : Token)
    (after : List Token) : Prop where
  split : tokenize source = before ++ keyword :: after
  enters : ∃ inside, Enters raw.position inside keyword after
  found : ∃ state, Visits (tokenize source) state (keyword :: after) ∧
    raw ∈ (step state keyword after).found.enums

theorem exists_entered {source : String} {raw : RawEnum} (hraw : raw ∈ (scan source).enums) :
    ∃ before keyword after, Entered source raw before keyword after := by
  obtain ⟨state, keyword, after, hvisits, hfound⟩ := exists_visits .start _ hraw
  obtain ⟨before, hsplit, -⟩ := collected_of_visits hvisits
  obtain ⟨-, inside, henters, -⟩ := step_found hfound
  exact ⟨before, keyword, after, hsplit, ⟨inside, henters⟩, state, hvisits, hfound⟩

theorem Entered.collected {source : String} {raw : RawEnum} {before after : List Token}
    {keyword : Token} (h : Entered source raw before keyword after) : Collected before raw.doc := by
  obtain ⟨state, hvisits, hfound⟩ := h.found
  obtain ⟨hdoc, -⟩ := step_found hfound
  obtain ⟨other, hsplit, hcollected⟩ := collected_of_visits hvisits
  have hbefore : before = other := List.append_cancel_right (h.split.symm.trans hsplit)
  rw [hdoc, hbefore]
  refine hcollected.resolve_left fun hmark => ?_
  have hident := hmark.ident?
  obtain ⟨inside, henters⟩ := h.enters
  cases henters with
  | keyword => simp [Token.ident?] at hident
  | viaTypedef place hrest => simp [Token.ident?] at hident

/-- Every enum that is found was entered at a keyword. Let `comments` be the comments right before it and
let a declaration be able to start in front of them: `lead` is empty, or it ends with a semicolon, a
brace or a colon. Then the longest block of comments at the end of `comments` documents the enum, and
nothing does if no comment is left in that block. -/
theorem doc_eq_longest_block (source : String) : ∀ raw ∈ (scan source).enums,
    (∃ before keyword after, Entered source raw before keyword after) ∧
    ∀ lead comments keyword after, Entered source raw (lead ++ comments) keyword after →
      (∀ token ∈ comments, token.isComment = true) →
      (∀ token ∈ lead.getLast?, opensDeclaration token = true) →
      ∃ kept, LongestBlock (placedComments comments) kept ∧
        raw.doc = kept.map PlacedComment.doc := by
  intro raw hraw
  refine ⟨exists_entered hraw, ?_⟩
  intro lead comments keyword after hentered hcomments hlead
  obtain ⟨kept, hkept, hblock⟩ := DocBlock.exists_longestBlock (placedComments comments)
  refine ⟨kept, hkept, ?_⟩
  rw [hentered.collected lead comments rfl hcomments hlead, hblock]

/-- A trailing comment, and behind a gap two comments of one block. -/
def collectorText : String := "; // t\n\n// a\n// b\ntypedef enum \x7b u \x7d e;"

/-- The comments in front of the enum of that text. -/
def collectorComments : List Token :=
  [⟨.comment ⟨"// t", .line, true, 1⟩, ⟨1, 3⟩⟩, ⟨.comment ⟨"// a", .line, false, 3⟩, ⟨3, 1⟩⟩,
    ⟨.comment ⟨"// b", .line, false, 4⟩, ⟨4, 1⟩⟩]

/-- The tokens behind its `typedef`. -/
def collectorAfter : List Token :=
  [⟨.ident "enum", ⟨5, 9⟩⟩, ⟨.punct '\x7b', ⟨5, 14⟩⟩, ⟨.ident "u", ⟨5, 16⟩⟩, ⟨.punct '\x7d', ⟨5, 18⟩⟩,
    ⟨.ident "e", ⟨5, 20⟩⟩, ⟨.punct ';', ⟨5, 21⟩⟩]

theorem doc_eq_longest_block_collectorText :
    ∃ raw ∈ (scan collectorText).enums, raw.doc.map (·.text) = ["// a", "// b"] ∧
      ∃ kept, LongestBlock (placedComments collectorComments) kept ∧
        raw.doc = kept.map PlacedComment.doc := by
  let raw : RawEnum := ⟨some "e", [], false, ⟨5, 9⟩, [⟨"// a", .line, 3, 3⟩, ⟨"// b", .line, 4, 4⟩],
    [⟨"u", ⟨5, 16⟩, []⟩], true⟩
  have hraw : raw ∈ (scan collectorText).enums := by decide +kernel
  have htokens : tokenize collectorText = [⟨.punct ';', ⟨1, 1⟩⟩] ++ collectorComments ++
      ⟨.ident "typedef", ⟨5, 1⟩⟩ :: collectorAfter := by
    decide +kernel
  have hmark : Visits (tokenize collectorText) {}
      (collectorComments ++ ⟨.ident "typedef", ⟨5, 1⟩⟩ :: collectorAfter) := by
    rw [htokens]
    exact Visits.start.step
  have hvisits : Visits (tokenize collectorText) ⟨[], raw.doc⟩
      (⟨.ident "typedef", ⟨5, 1⟩⟩ :: collectorAfter) := hmark.step.step.step
  have hentered : Entered collectorText raw _ _ _ :=
    ⟨htokens, ⟨_, .viaTypedef _ rfl⟩, _, hvisits, by decide +kernel⟩
  refine ⟨raw, hraw, rfl, ?_⟩
  exact (doc_eq_longest_block collectorText raw hraw).2 _ _ _ _ hentered (by decide) (by decide)

end EnumConverter.Scan
