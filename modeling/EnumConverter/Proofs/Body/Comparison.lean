import EnumConverter.Proofs.Body.Initializer
import Mathlib.Data.List.Infix

namespace EnumConverter.Scan

open Source

/-- What the reader of a body takes an angle outside brackets for. -/
inductive Angle where
  /-- The start of template arguments. -/
  | opening
  /-- The end of template arguments, if any are open. -/
  | closing
deriving DecidableEq, Repr

/-- Whether a token makes an operator of an angle in front of it. -/
def completesOperator (token : Token) : Bool :=
  token.isPunct '<' || token.isPunct '='

/-- The angles among tokens with `depth` brackets open in front of them. The flag says whether an
identifier stands right before them. -/
def angles (depth : Nat) (afterIdent : Bool) : List Token → List Angle
  | [] => []
  | token :: rest =>
    match token.kind with
    | .punct '(' | .punct '[' | .punct '\x7b' => angles (depth + 1) false rest
    | .punct ')' | .punct ']' | .punct '\x7d' => angles (depth - 1) false rest
    | .punct '<' =>
      if depth = 0 && afterIdent && !rest.head?.any completesOperator then
        .opening :: angles depth false rest
      else angles depth false rest
    | .punct '>' =>
      if depth = 0 then .closing :: angles depth false rest else angles depth false rest
    | _ => angles depth token.ident?.isSome rest

/-- Every angle of an initializer that is taken for the start of template arguments has an angle of its
own behind it that closes them. -/
def AnglesClosed (initializer : List Token) : Prop :=
  ∀ suffix ∈ (angles 0 false initializer).tails, suffix.count .opening ≤ suffix.count .closing

instance (initializer : List Token) : Decidable (AnglesClosed initializer) :=
  inferInstanceAs (Decidable (∀ suffix ∈ (angles 0 false initializer).tails, _))

/-- The number of open lists of template arguments after one more angle. -/
def Angle.after (count : Nat) : Angle → Nat
  | .opening => count + 1
  | .closing => count - 1

/-- A count that goes on at zero when nothing is left to take away ends at zero if and only if behind
every place as much is taken away as is added. -/
theorem foldl_after_eq_zero_iff (marks : List Angle) (count : Nat) :
    marks.foldl Angle.after count = 0 ↔
      (∀ suffix ∈ marks.tails, suffix.count .opening ≤ suffix.count .closing) ∧
        count + marks.count .opening ≤ marks.count .closing := by
  induction marks generalizing count with
  | nil => simp
  | cons mark marks ih =>
    have hwhole : marks ∈ marks.tails := (List.mem_tails _ _).2 List.suffix_rfl
    rw [List.foldl_cons, ih, List.tails_cons, List.forall_mem_cons]
    cases mark with
    | opening =>
      simp only [Angle.after, List.count_cons_self,
        List.count_cons_of_ne (show Angle.opening ≠ .closing by decide)]
      constructor
      · rintro ⟨hsuffixes, hall⟩
        exact ⟨⟨by omega, hsuffixes⟩, by omega⟩
      · rintro ⟨⟨-, hsuffixes⟩, hall⟩
        exact ⟨hsuffixes, by omega⟩
    | closing =>
      simp only [Angle.after, List.count_cons_self,
        List.count_cons_of_ne (show Angle.closing ≠ .opening by decide)]
      constructor
      · rintro ⟨hsuffixes, hall⟩
        have hmarks := hsuffixes marks hwhole
        exact ⟨⟨by omega, hsuffixes⟩, by omega⟩
      · rintro ⟨⟨-, hsuffixes⟩, hall⟩
        have hmarks := hsuffixes marks hwhole
        exact ⟨hsuffixes, by omega⟩

/-- Template arguments that start in an initializer are closed in it if none are open behind it. -/
theorem anglesClosed_iff (initializer : List Token) :
    AnglesClosed initializer ↔ (angles 0 false initializer).foldl Angle.after 0 = 0 := by
  rw [foldl_after_eq_zero_iff, Nat.zero_add]
  refine ⟨fun h => ⟨h, ?_⟩, fun h => h.1⟩
  exact h _ ((List.mem_tails _ _).2 List.suffix_rfl)

section Angles

variable {depth : Nat} {afterIdent : Bool} {token : Token} {rest : List Token}

theorem angles_opening {pair : Char × Char} (hpair : pair ∈ bracketPairs)
    (h : token.kind = .punct pair.1) :
    angles depth afterIdent (token :: rest) = angles (depth + 1) false rest := by
  simp only [bracketPairs, List.mem_cons, List.not_mem_nil, or_false] at hpair
  obtain rfl | rfl | rfl := hpair <;> simp [angles, h]

theorem angles_closing {pair : Char × Char} (hpair : pair ∈ bracketPairs)
    (h : token.kind = .punct pair.2) :
    angles depth afterIdent (token :: rest) = angles (depth - 1) false rest := by
  simp only [bracketPairs, List.mem_cons, List.not_mem_nil, or_false] at hpair
  obtain rfl | rfl | rfl := hpair <;> simp [angles, h]

theorem angles_plain (h : isPlain token = true) :
    angles depth afterIdent (token :: rest) = angles depth token.ident?.isSome rest := by
  obtain ⟨kind, position⟩ := token
  cases kind with
  | punct c =>
    simp [isPlain, Token.isPunct] at h
    simp [angles, h]
  | _ => simp [angles]

/-- Inside brackets no angle counts. -/
theorem angles_inside (hdepth : depth ≠ 0)
    (h : ∀ pair ∈ bracketPairs, token.kind ≠ .punct pair.1 ∧ token.kind ≠ .punct pair.2) :
    angles depth afterIdent (token :: rest) = angles depth token.ident?.isSome rest := by
  simp only [bracketPairs, List.forall_mem_cons] at h
  rw [angles]
  split <;> simp_all [Token.ident?]

end Angles

theorem angles_nested {stack : List Char} {tokens : List Token} (depth : Nat) (rest : List Token)
    (h : nested stack tokens = true) (afterIdent : Bool) :
    ∃ afterTokens, angles (stack.length + (depth + 1)) afterIdent (tokens ++ rest) =
      angles (depth + 1) afterTokens rest := by
  induction tokens generalizing stack afterIdent with
  | nil =>
    have hstack : stack = [] := by simpa [nested] using h
    exact ⟨afterIdent, by simp [hstack]⟩
  | cons token tokens ih =>
    rw [List.cons_append]
    obtain ⟨pair, hpair, hkind, hstack⟩ | ⟨pair, hpair, outer, hkind, rfl, hstack⟩ |
      ⟨hnone, hstack⟩ := nested_cons h
    · obtain ⟨afterTokens, hmore⟩ := ih hstack false
      refine ⟨afterTokens, ?_⟩
      rw [angles_opening hpair hkind, ← hmore, List.length_cons]
      congr 1
      omega
    · obtain ⟨afterTokens, hmore⟩ := ih hstack false
      refine ⟨afterTokens, ?_⟩
      rw [angles_closing hpair hkind, ← hmore, List.length_cons]
      congr 1
      omega
    · obtain ⟨afterTokens, hmore⟩ := ih hstack token.ident?.isSome
      exact ⟨afterTokens, by rw [angles_inside (by omega) hnone, hmore]⟩

/-- The angles in a group do not count. -/
theorem angles_group {pair : Char × Char} (hpair : pair ∈ bracketPairs) {group : List Token}
    (h : Enclosed pair group) (afterIdent : Bool) (rest : List Token) :
    angles 0 afterIdent (group ++ rest) = angles 0 false rest := by
  obtain ⟨hopening, hclosing, hinner⟩ := h
  rename_i opening closing inner
  obtain ⟨afterInner, hinside⟩ := angles_nested 0 (closing :: rest) hinner false
  have hgroup : opening :: inner ++ [closing] ++ rest = opening :: (inner ++ closing :: rest) := by simp
  rw [hgroup, angles_opening hpair hopening]
  exact hinside.trans (angles_closing hpair hclosing)

/-- Tokens with properly nested brackets, and without commas and semicolons outside them. -/
inductive Operands : List Token → Prop
  | nil : Operands []
  | token {token : Token} {rest : List Token}
      (htoken : ['(', ')', '[', ']', '\x7b', '\x7d', ',', ';'].all (!token.isPunct ·) = true)
      (hrest : Operands rest) : Operands (token :: rest)
  | group {pair : Char × Char} {group rest : List Token} (hpair : pair ∈ bracketPairs)
      (hgroup : Enclosed pair group) (hrest : Operands rest) : Operands (group ++ rest)

theorem angles_greater {greater : Token} (hgreater : greater.isPunct '>' = true) (afterIdent : Bool)
    (rest : List Token) : angles 0 afterIdent (greater :: rest) = .closing :: angles 0 false rest := by
  simp [angles, kind_of_isPunct hgreater]

theorem angles_less {less : Token} (hless : less.isPunct '<' = true) (afterIdent : Bool)
    (rest : List Token) : angles 0 afterIdent (less :: rest) =
      (if afterIdent && !rest.head?.any completesOperator then [.opening] else []) ++
        angles 0 false rest := by
  simp only [angles, kind_of_isPunct hless, decide_true, Bool.true_and]
  split <;> rfl

variable (state : BodyState)

theorem readBody_less {less second : Token} {rest : List Token} (tail : List Token)
    (hdepth : state.depth = 0) (hnamed : state.expectsName = false) (hless : less.isPunct '<' = true)
    (hcode : ∀ token ∈ rest ++ [second], token.isComment = false)
    (hsecond : completesOperator second = false) :
    readBody state (less :: (rest ++ second :: tail)) =
      readBody { state with
        angles := state.angles +
          (if state.afterIdent && !rest.head?.any completesOperator then 1 else 0)
        afterIdent := false } (rest ++ second :: tail) := by
  have hkind := kind_of_isPunct hless
  have hnext : (skipComments (rest ++ second :: tail)).head? = rest.head?.or (some second) := by
    cases rest with
    | nil => simp [skipComments, hcode second (by simp)]
    | cons first rest => simp [skipComments, hcode first (by simp)]
  have hopens : state.opensTemplate (rest.head?.or (some second)) =
      (state.afterIdent && !rest.head?.any completesOperator) := by
    cases rest with
    | nil => simpa [BodyState.opensTemplate, completesOperator] using fun _ => hsecond
    | cons first rest => rfl
  rw [readBody_code (isComment_eq_false_iff.1 (isComment_of_isPunct hless))
    (fun _ => by simp [Token.isPunct, hkind]), hnext, state.onCode_less hdepth hnamed hless, hopens]

/-- An initializer without commas is read up to what ends it, and the angles in it are counted. -/
theorem readBody_operands {tokens : List Token} (h : Operands tokens) {second : Token}
    (hsecond : completesOperator second = false)
    (hcode : ∀ token ∈ tokens ++ [second], token.isComment = false) (hdepth : state.depth = 0)
    (hnamed : state.expectsName = false) (tail : List Token) :
    ∃ afterIdent, readBody state (tokens ++ second :: tail) =
      readBody { state with
        angles := (angles 0 state.afterIdent tokens).foldl Angle.after state.angles
        afterIdent } (second :: tail) := by
  induction h generalizing state with
  | nil => exact ⟨state.afterIdent, rfl⟩
  | @token token rest htoken _ ih =>
    obtain ⟨hfirst, hrest⟩ := List.forall_mem_cons.1 hcode
    rw [List.cons_append]
    by_cases hless : token.isPunct '<' = true
    · obtain ⟨afterIdent, hmore⟩ := ih { state with
        angles := state.angles +
          (if state.afterIdent && !rest.head?.any completesOperator then 1 else 0)
        afterIdent := false } hrest hdepth hnamed
      refine ⟨afterIdent, ?_⟩
      rw [readBody_less state tail hdepth hnamed hless hrest hsecond, hmore, angles_less hless]
      split <;> rfl
    by_cases hgreater : token.isPunct '>' = true
    · obtain ⟨afterIdent, hmore⟩ := ih { state with
        angles := state.angles - 1, afterIdent := false } hrest hdepth hnamed
      refine ⟨afterIdent, ?_⟩
      rw [angles_greater hgreater]
      exact (leads_greater state hdepth hgreater _).trans hmore
    · have hplain : isPlain token = true := by
        simp_all [isPlain]
      obtain ⟨afterIdent, hmore⟩ := ih (state.behind token) hrest hdepth hnamed
      refine ⟨afterIdent, ?_⟩
      rw [angles_plain hplain]
      exact (leads_plain state hfirst hnamed hplain _).trans hmore
  | @group pair group rest hpair hgroup _ ih =>
    rw [List.append_assoc] at hcode ⊢
    obtain ⟨hfirst, hrest⟩ := List.forall_mem_append.1 hcode
    obtain ⟨afterIdent, hmore⟩ := ih { state with afterIdent := false } hrest hdepth hnamed
    refine ⟨afterIdent, ?_⟩
    rw [angles_group hpair hgroup]
    exact (leads_group state hpair hgroup hfirst _).trans hmore

/-- The given names with the given initializers, with commas between them. -/
inductive Assignments : List (Token × List Token) → List Token → Prop
  | last {name equals : Token} {initializer : List Token} (hname : name.ident?.isSome = true)
      (hequals : equals.isPunct '=' = true) (hne : initializer ≠ [])
      (hinitializer : Operands initializer) :
      Assignments [(name, initializer)] (name :: equals :: initializer)
  | cons {name equals comma : Token} {initializer rest : List Token}
      {more : List (Token × List Token)} (hname : name.ident?.isSome = true)
      (hequals : equals.isPunct '=' = true) (hne : initializer ≠ [])
      (hinitializer : Operands initializer) (hcomma : comma.isPunct ',' = true)
      (hrest : Assignments more rest) :
      Assignments ((name, initializer) :: more) (name :: equals :: (initializer ++ comma :: rest))

/-- The names that are read when `count` lists of template arguments are open in front of the first. It
is read itself if the flag says so. -/
def namesRead (expected : Bool) (count : Nat) : List (Token × List Token) → List Token
  | [] => []
  | assignment :: more =>
    let behind := (angles 0 false assignment.2).foldl Angle.after count
    (if expected then [assignment.1] else []) ++ namesRead (behind = 0) behind more

theorem namesRead_sublist (expected : Bool) (count : Nat)
    (assignments : List (Token × List Token)) :
    (namesRead expected count assignments).Sublist (assignments.map (·.1)) := by
  induction assignments generalizing expected count with
  | nil => exact List.Sublist.refl _
  | cons assignment more ih =>
    cases expected with
    | true => exact (ih ..).cons_cons _
    | false => exact (ih ..).cons _

/-- A name that is not expected is missed. -/
theorem namesRead_false_ne (count : Nat) (assignment : Token × List Token)
    (more : List (Token × List Token)) :
    namesRead false count (assignment :: more) ≠ (assignment :: more).map (·.1) := by
  intro h
  obtain ⟨expected, behind, hmissed⟩ : ∃ expected behind,
      namesRead false count (assignment :: more) = namesRead expected behind more := ⟨_, _, rfl⟩
  have hlength := (namesRead_sublist expected behind more).length_le
  rw [← hmissed, h] at hlength
  simp only [List.map_cons, List.length_cons, List.length_map] at hlength
  omega

/-- All names are read if and only if no initializer but the last leaves template arguments open. -/
theorem namesRead_eq_iff (assignments : List (Token × List Token)) :
    namesRead true 0 assignments = assignments.map (·.1) ↔
      ∀ assignment ∈ assignments.dropLast, AnglesClosed assignment.2 := by
  induction assignments with
  | nil => simp [namesRead]
  | cons assignment more ih =>
    cases more with
    | nil => simp [namesRead]
    | cons next more =>
      rw [List.dropLast_cons_cons, List.forall_mem_cons, anglesClosed_iff, ← ih, namesRead,
        List.map_cons, if_pos rfl, List.singleton_append, List.cons.injEq]
      by_cases hclosed : (angles 0 false assignment.2).foldl Angle.after 0 = 0
      · simp [hclosed]
      · simpa [hclosed] using namesRead_false_ne _ next more

/-- A name and the equals sign behind it. -/
theorem leads_target {name equals : Token} (hname : name.ident?.isSome = true)
    (hequals : equals.isPunct '=' = true) (expectsName : Bool) (count : Nat) :
    ∃ found : List RawEnumerator,
      found.map (some ·.word) = (if expectsName then [name] else []).map Token.word? ∧
      ∀ earlier, Leads { enumerators := earlier, expectsName, angles := count } [name, equals]
        { enumerators := found.reverse ++ earlier, expectsName := false, angles := count } := by
  obtain ⟨text, hname'⟩ := Option.isSome_iff_exists.1 hname
  cases expectsName with
  | true =>
    refine ⟨[{ name := text, position := name.position }],
      by simp [Token.word?, hname', RawEnumerator.word], fun earlier => ?_⟩
    exact (leads_name { enumerators := earlier, angles := count } hname' rfl rfl).append
      (leads_equals _ rfl hequals)
  | false =>
    refine ⟨[], rfl, fun earlier => ?_⟩
    have hcode : name.isComment = false := by
      simp [Token.isComment, Token.comment?, Token.kind_of_ident? hname']
    exact (leads_plain { enumerators := earlier, expectsName := false, angles := count } hcode rfl
      (isPlain_of_ident? hname)).append (leads_equals _ rfl hequals)

/-- Names with initializers are read behind the enumerators in front of them. -/
theorem readBody_of_assignments {assignments : List (Token × List Token)} {tokens : List Token}
    (h : Assignments assignments tokens) (hcode : ∀ token ∈ tokens, token.isComment = false)
    {closing : Token} (hclosing : closing.isPunct '\x7d' = true) (expectsName : Bool) (count : Nat)
    (earlier : List RawEnumerator) :
    ∃ found : List RawEnumerator,
      found.map (some ·.word) = (namesRead expectsName count assignments).map Token.word? ∧
      ∀ rest, readBody { enumerators := earlier, expectsName, angles := count }
          (tokens ++ closing :: rest) = ⟨earlier.reverse ++ found, true, rest⟩ := by
  induction h generalizing expectsName count earlier with
  | @last name equals initializer hname hequals _ hinitializer =>
    obtain ⟨found, hfound, htarget⟩ := leads_target hname hequals expectsName count
    refine ⟨found, by simp [namesRead, hfound], fun rest => ?_⟩
    have hclosingCode := isComment_of_isPunct hclosing
    have hvalue : ∀ token ∈ initializer ++ [closing], token.isComment = false :=
      List.forall_mem_append.2 ⟨fun token htoken => hcode token (by simp [htoken]),
        by simpa using hclosingCode⟩
    obtain ⟨afterIdent, hread⟩ := readBody_operands
      { enumerators := found.reverse ++ earlier, expectsName := false, angles := count } hinitializer
      (by simp [completesOperator, Token.isPunct, kind_of_isPunct hclosing]) hvalue rfl rfl rest
    refine (htarget earlier _).trans (hread.trans ?_)
    rw [readBody_close rfl (isComment_eq_false_iff.1 hclosingCode) hclosing]
    simp
  | @cons name equals comma initializer rest more hname hequals _ hinitializer hcomma _ ih =>
    obtain ⟨found, hfound, htarget⟩ := leads_target hname hequals expectsName count
    obtain ⟨others, hothers, hmore⟩ := ih (fun token htoken => hcode token (by simp [htoken]))
      ((angles 0 false initializer).foldl Angle.after count = 0)
      ((angles 0 false initializer).foldl Angle.after count) (found.reverse ++ earlier)
    refine ⟨found ++ others, by simp [namesRead, hfound, hothers], fun tail => ?_⟩
    have hvalue : ∀ token ∈ initializer ++ [comma], token.isComment = false :=
      List.forall_mem_append.2 ⟨fun token htoken => hcode token (by simp [htoken]),
        by simpa using isComment_of_isPunct hcomma⟩
    obtain ⟨afterIdent, hread⟩ := readBody_operands
      { enumerators := found.reverse ++ earlier, expectsName := false, angles := count } hinitializer
      (by simp [completesOperator, Token.isPunct, kind_of_isPunct hcomma]) hvalue rfl rfl
      (rest ++ closing :: tail)
    have htokens : name :: equals :: (initializer ++ comma :: rest) ++ closing :: tail =
        [name, equals] ++ (initializer ++ comma :: (rest ++ closing :: tail)) := by simp
    rw [htokens, htarget, hread]
    refine (leads_comma _ rfl hcomma _).trans ((hmore tail).trans ?_)
    simp

/-- A body of names with initializers, in which no comma and no semicolon stands outside brackets but
between them, is read up to its closing brace, with comments anywhere. All of its names are read, each
at its place, if and only if in every initializer but the last each angle that is taken for the start of
template arguments is closed. -/
theorem readBody_assignments {assignments : List (Token × List Token)} {body : List Token}
    {closing : Token} (h : Assignments assignments (withoutComments body))
    (hclosing : closing.isPunct '\x7d' = true) (rest : List Token) :
    ((readBody {} (body ++ closing :: rest)).enumerators.map (some ·.word) =
        assignments.map (·.1.word?) ↔
      ∀ assignment ∈ assignments.dropLast, AnglesClosed assignment.2) ∧
      (readBody {} (body ++ closing :: rest)).closed = true ∧
      (readBody {} (body ++ closing :: rest)).rest = rest := by
  obtain ⟨found, hfound, hread⟩ :=
    readBody_of_assignments h isComment_of_mem_withoutComments hclosing true 0 []
  obtain ⟨hwords, hclosed, hrest⟩ := readBody_of_withoutComments rest hclosing hread
  refine ⟨?_, hclosed, hrest⟩
  rw [hwords, List.reverse_nil, List.nil_append, hfound, ← namesRead_eq_iff]
  constructor
  · intro hsame
    have hlength := congrArg List.length hsame
    exact (namesRead_sublist true 0 assignments).eq_of_length (by simpa using hlength)
  · intro hsame
    rw [hsame, List.map_map]
    rfl

/-- Comparisons in parentheses, behind a number, and behind a name in the last initializer. -/
def comparedBody : List Token :=
  tokenize "a = (x < y), /* , */ b = 1 < 2, c = m < n"

theorem readBody_assignments_comparedBody :
    Assignments
        [(onFirstLine 1 (.ident "a"), [onFirstLine 5 (.punct '('), onFirstLine 6 (.ident "x"),
            onFirstLine 8 (.punct '<'), onFirstLine 10 (.ident "y"), onFirstLine 11 (.punct ')')]),
          (onFirstLine 22 (.ident "b"),
            [onFirstLine 26 .number, onFirstLine 28 (.punct '<'), onFirstLine 30 .number]),
          (onFirstLine 33 (.ident "c"), [onFirstLine 37 (.ident "m"), onFirstLine 39 (.punct '<'),
            onFirstLine 41 (.ident "n")])]
        (withoutComments comparedBody) ∧
      (readBody {} (comparedBody ++ [onFirstLine 43 (.punct '\x7d')])).enumerators.map (some ·.word) =
        [some ("a", ⟨1, 1⟩), some ("b", ⟨1, 22⟩), some ("c", ⟨1, 33⟩)] := by
  have hparentheses : Enclosed ('(', ')') (onFirstLine 5 (.punct '(') :: [onFirstLine 6 (.ident "x"),
      onFirstLine 8 (.punct '<'), onFirstLine 10 (.ident "y")] ++ [onFirstLine 11 (.punct ')')]) :=
    .group rfl rfl (by decide)
  have hnumbers : Operands [onFirstLine 26 .number, onFirstLine 28 (.punct '<'),
      onFirstLine 30 .number] :=
    .token (by decide) (.token (by decide) (.token (by decide) .nil))
  have hnames : Operands [onFirstLine 37 (.ident "m"), onFirstLine 39 (.punct '<'),
      onFirstLine 41 (.ident "n")] :=
    .token (by decide) (.token (by decide) (.token (by decide) .nil))
  have hthird : Assignments [(onFirstLine 33 (.ident "c"), _)] _ :=
    .last rfl (show (onFirstLine 35 (.punct '=')).isPunct '=' = true by decide) (by simp) hnames
  have hsecond : Assignments ((onFirstLine 22 (.ident "b"), _) :: _) _ :=
    .cons rfl (show (onFirstLine 24 (.punct '=')).isPunct '=' = true by decide) (by simp) hnumbers
      (show (onFirstLine 31 (.punct ',')).isPunct ',' = true by decide) hthird
  have hfirst : Assignments ((onFirstLine 1 (.ident "a"), _) :: _) _ :=
    .cons rfl (show (onFirstLine 3 (.punct '=')).isPunct '=' = true by decide) (by simp)
      (.group (by decide) hparentheses .nil)
      (show (onFirstLine 12 (.punct ',')).isPunct ',' = true by decide) hsecond
  have hbody : Assignments _ (withoutComments comparedBody) :=
    (congrArg (Assignments _) (by decide +kernel)).mp hfirst
  exact ⟨hbody, (readBody_assignments hbody (by decide) []).1.2 (by decide)⟩

/-- A body whose first initializer compares two names. -/
def hiddenBody : List Token :=
  tokenize "a = x < y, b = 1"

/-- The comparison is taken for the start of template arguments, and nothing closes them: the second
name is missed, and nothing is reported. -/
theorem hiddenBody_hides_enumerator :
    Assignments
        [(onFirstLine 1 (.ident "a"), [onFirstLine 5 (.ident "x"), onFirstLine 7 (.punct '<'),
            onFirstLine 9 (.ident "y")]),
          (onFirstLine 12 (.ident "b"), [onFirstLine 16 .number])]
        (withoutComments hiddenBody) ∧
      (readBody {} (hiddenBody ++ [onFirstLine 18 (.punct '\x7d')])).enumerators.map (·.name) = ["a"] ∧
      (scan "enum e \x7b a = x < y, b = 1 \x7d;").enums.map (·.enumerators.map (·.name)) = [["a"]] ∧
      (scan "enum e \x7b a = x < y, b = 1 \x7d;").diagnostics = [] := by
  have hnames : Operands [onFirstLine 5 (.ident "x"), onFirstLine 7 (.punct '<'),
      onFirstLine 9 (.ident "y")] :=
    .token (by decide) (.token (by decide) (.token (by decide) .nil))
  have hsecond : Assignments [(onFirstLine 12 (.ident "b"), [onFirstLine 16 .number])] _ :=
    .last rfl (show (onFirstLine 14 (.punct '=')).isPunct '=' = true by decide) (by simp)
      (.token (by decide) .nil)
  have hfirst : Assignments ((onFirstLine 1 (.ident "a"), _) :: _) _ :=
    .cons rfl (show (onFirstLine 3 (.punct '=')).isPunct '=' = true by decide) (by simp) hnames
      (show (onFirstLine 10 (.punct ',')).isPunct ',' = true by decide) hsecond
  have hbody : Assignments _ (withoutComments hiddenBody) :=
    (congrArg (Assignments _) (by decide +kernel)).mp hfirst
  exact ⟨hbody, by decide +kernel, by decide +kernel, by decide +kernel⟩

end EnumConverter.Scan
