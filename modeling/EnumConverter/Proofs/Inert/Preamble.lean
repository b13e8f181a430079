import EnumConverter.Proofs.Inert.Line
import EnumConverter.Proofs.Text.Line

namespace EnumConverter.Scan

open Source Text

/-- Lines that hold nothing but comments and directives, whatever follows, and behind which a directive
can start. -/
def InertLines (text : List Char) : Prop :=
  ∀ here : Cursor, here.fresh = true → ∃ (there : Cursor) (comments : List Token),
    there.fresh = true ∧ (∀ token ∈ comments, token.isComment = true) ∧
      ∀ rest, here.tokens (text ++ rest) = comments ++ there.tokens rest

namespace InertLines

theorem nil : InertLines [] :=
  fun here hfresh => ⟨here, [], hfresh, by simp, fun _ => rfl⟩

theorem append {first second : List Char} (hfirst : InertLines first) (hsecond : InertLines second) :
    InertLines (first ++ second) := by
  intro here hfresh
  obtain ⟨middle, comments, hfresh', hcomments, hread⟩ := hfirst here hfresh
  obtain ⟨there, more, hfresh'', hmore, hread'⟩ := hsecond middle hfresh'
  refine ⟨there, comments ++ more, hfresh'', ?_, ?_⟩
  · exact fun token htoken => (List.mem_append.1 htoken).elim (hcomments token) (hmore token)
  · intro rest
    rw [List.append_assoc, hread, hread', List.append_assoc]

theorem followed {first second : String} (hfirst : InertLines first.toList)
    (hsecond : InertLines second.toList) : InertLines (first ++ second).toList := by
  rw [String.toList_append]
  exact hfirst.append hsecond

theorem feed : InertLines ['\n'] :=
  fun here _ => ⟨here.pastBlank '\n', [], by simp [Cursor.pastBlank], by simp,
    fun rest => here.tokens_blank (by decide) rest⟩

theorem comment {text : String} (htext : '\n' ∉ text.toList) :
    InertLines ("//" ++ text ++ "\n").toList := by
  have hline : ("//" ++ text ++ "\n").toList = '/' :: '/' :: text.toList ++ ['\n'] := by simp
  rw [hline]
  intro here _
  refine ⟨(here.pastComment ('/' :: '/' :: text.toList)).pastBlank '\n',
    [here.lineComment ('/' :: '/' :: text.toList)], by simp [Cursor.pastBlank], ?_, ?_⟩
  · simp [Cursor.lineComment, Token.isComment, Token.comment?]
  · intro rest
    rw [List.append_assoc, List.singleton_append, here.tokens_lineComment htext (.inr rfl),
      Cursor.tokens_blank _ (by decide)]
    rfl

/-- Nothing is found in such lines. -/
theorem passes {text : List Char} (h : InertLines text) {here : Cursor} (hfresh : here.fresh = true)
    (scopes : ScopeStack) (doc : DocBlock) : ∃ (there : Cursor) (doc' : DocBlock),
      Passes ⟨here, scopes, doc⟩ text {} ⟨there, scopes, doc'⟩ := by
  obtain ⟨there, comments, -, hcomments, hread⟩ := h here hfresh
  refine ⟨there, doc.observeAll (placedComments comments), fun final rest => ?_⟩
  rw [Spot.scan, hread]
  exact scanFrom_observeAll final scopes doc hcomments (there.tokens rest)

end InertLines

/-- The cursor behind a directive. -/
def pastDirective (here : Cursor) (taken : List Char) : Cursor :=
  { here with position := here.position.after ('#' :: taken) }

theorem tokens_directive {here : Cursor} (hfresh : here.fresh = true) {cs taken rest : List Char}
    (hread : directiveRest cs = ⟨taken, rest⟩) :
    here.tokens ('#' :: cs) = (pastDirective here taken).tokens rest := by
  have hnext : Lexeme.next true '#' cs = ⟨.directive, (directiveRest cs).extend ['#']⟩ := rfl
  rw [Cursor.tokens_cons, hfresh, hnext, hread]
  rfl

theorem directiveRest_cons {c : Char} (hfeed : c ≠ '\n') (hbackslash : c ≠ '\\') (cs : List Char) :
    directiveRest (c :: cs) = (directiveRest cs).extend [c] := by
  simp [directiveRest, hbackslash]

theorem directiveRest_backslash {d : Char} {cs : List Char} (hfeed : d ≠ '\n')
    (hreturn : ∀ tail, d = '\r' → cs ≠ '\n' :: tail) :
    directiveRest ('\\' :: d :: cs) = (directiveRest (d :: cs)).extend ['\\'] := by
  rw [directiveRest.eq_def ('\\' :: d :: cs)]
  split
  case h_5 heq =>
    obtain ⟨rfl, rfl⟩ := List.cons.inj heq
    rfl
  all_goals simp_all

/-- A directive without backslashes ends with its line. -/
theorem directiveRest_line {text : List Char} (hfeed : '\n' ∉ text) (hbackslash : '\\' ∉ text)
    (rest : List Char) : directiveRest (text ++ '\n' :: rest) = ⟨text, '\n' :: rest⟩ := by
  induction text with
  | nil => rfl
  | cons c text ih =>
    rw [List.mem_cons, not_or] at hfeed hbackslash
    rw [List.cons_append, directiveRest_cons (Ne.symm hfeed.1) (Ne.symm hbackslash.1),
      ih hfeed.2 hbackslash.2]
    rfl

/-- A directive with this text ends with its line or with the blank line below it. Which of both does
not depend on what follows. -/
def EndsAtBlankLine (text : List Char) : Prop :=
  ∃ taken feeds, (feeds = ['\n'] ∨ feeds = ['\n', '\n']) ∧
    ∀ rest, directiveRest (text ++ '\n' :: '\n' :: rest) = ⟨taken, feeds ++ rest⟩

theorem EndsAtBlankLine.cons {c : Char} {text : List Char} (h : EndsAtBlankLine text)
    (hcons : ∀ rest, directiveRest (c :: (text ++ '\n' :: '\n' :: rest)) =
      (directiveRest (text ++ '\n' :: '\n' :: rest)).extend [c]) : EndsAtBlankLine (c :: text) := by
  obtain ⟨taken, feeds, hfeeds, hread⟩ := h
  refine ⟨c :: taken, feeds, hfeeds, ?_⟩
  intro rest
  rw [List.cons_append, hcons, hread]
  rfl

theorem endsAtBlankLine {text : List Char} (hfeed : '\n' ∉ text) : EndsAtBlankLine text := by
  induction text with
  | nil => exact ⟨[], _, .inr rfl, fun rest => rfl⟩
  | cons c text ih =>
    rw [List.mem_cons, not_or] at hfeed
    have hrest := ih hfeed.2
    by_cases hbackslash : c = '\\'
    · subst hbackslash
      -- The backslash takes the end of the line along where only a carriage return may stand between.
      cases text with
      | nil => exact ⟨['\\', '\n'], _, .inl rfl, fun rest => rfl⟩
      | cons d text =>
        have hd : d ≠ '\n' := by
          rintro rfl
          simp at hfeed
        by_cases hend : d = '\r' ∧ text = []
        · obtain ⟨rfl, rfl⟩ := hend
          exact ⟨['\\', '\r', '\n'], _, .inl rfl, fun rest => rfl⟩
        · refine hrest.cons fun rest => directiveRest_backslash hd ?_
          intro tail hreturn hfeeds
          cases text with
          | nil => exact hend ⟨hreturn, rfl⟩
          | cons e text => simp_all
    · exact hrest.cons fun rest => directiveRest_cons (Ne.symm hfeed.1) hbackslash _

/-- A directive is skipped up to the line feeds that it leaves. -/
theorem InertLines.of_directiveRest {text taken feeds : List Char}
    (hfeeds : feeds = ['\n'] ∨ feeds = ['\n', '\n'])
    (h : ∀ rest, directiveRest (text ++ rest) = ⟨taken, feeds ++ rest⟩) :
    InertLines ('#' :: text) := by
  have hskip : InertLines feeds := by
    obtain rfl | rfl := hfeeds
    · exact feed
    · exact feed.append feed
  intro here hfresh
  obtain ⟨there, comments, hthere, hcomments, hread⟩ := hskip (pastDirective here taken) hfresh
  refine ⟨there, comments, hthere, hcomments, fun rest => ?_⟩
  rw [List.cons_append, tokens_directive hfresh (h rest)]
  exact hread rest

theorem InertLines.directive {text : List Char} (hfeed : '\n' ∉ text) (hbackslash : '\\' ∉ text) :
    InertLines ('#' :: (text ++ ['\n'])) := by
  have hread (rest : List Char) : directiveRest (text ++ ['\n'] ++ rest) = ⟨text, ['\n'] ++ rest⟩ := by
    rw [List.append_assoc]
    exact directiveRest_line hfeed hbackslash rest
  exact of_directiveRest (.inl rfl) hread

/-- Whatever a directive says, a blank line below it ends it. -/
theorem InertLines.directive_feed {text : List Char} (hfeed : '\n' ∉ text) :
    InertLines ('#' :: (text ++ ['\n', '\n'])) := by
  obtain ⟨taken, feeds, hfeeds, hends⟩ := endsAtBlankLine hfeed
  have hread (rest : List Char) :
      directiveRest (text ++ ['\n', '\n'] ++ rest) = ⟨taken, feeds ++ rest⟩ := by
    rw [List.append_assoc]
    exact hends rest
  exact of_directiveRest hfeeds hread

/-- A file is a preamble with code behind it. -/
theorem scan_inert {preamble code : String} (hpreamble : InertLines preamble.toList)
    (hcode : Inert code.toList) : scan (preamble ++ code) = {} := by
  obtain ⟨middle, doc, hfirst⟩ := hpreamble.passes (rfl : ({} : Cursor).fresh = true) [] []
  obtain ⟨there, inner, doc', hinner, hsecond⟩ := hcode middle [] [] doc rfl
  obtain rfl : inner = [] := by simpa using hinner
  have hpass := hfirst.then hsecond
  rw [← String.toList_append] at hpass
  exact scan_of_passes hpass rfl

end EnumConverter.Scan
