import EnumConverter.Proofs.Build.Earlier
import EnumConverter.Proofs.CommentFree.Outline
import EnumConverter.Proofs.Document.Block
import EnumConverter.Proofs.Scan.Visit

namespace EnumConverter.Scan

open Source

/-- Whether a comment belongs to the enumerator before it, when `earlier` are the comments between the
two, latest first. It does if it is trailing, or if it goes on with a comment right above it that does. -/
def attaches : List PlacedComment → PlacedComment → Bool
  | [], placed => placed.comment.trailing
  | previous :: earlier, placed =>
    placed.comment.trailing ||
      (isContinuation placed.comment.text && attaches earlier previous &&
        placed.line = previous.comment.endLine + 1)

/-- The comments that belong to an enumerator, among those between it and the next one. -/
def attachedComments (comments : List PlacedComment) : List PlacedComment :=
  filterEarlier (fun earlier => attaches earlier.reverse) comments

/-- An enumerator and what stands behind its name up to the next enumerator. -/
structure EnumeratorPart where
  name : String
  position : Position
  behind : List Token

namespace EnumeratorPart

/-- The tokens of an enumerator, its name first. -/
def tokens (part : EnumeratorPart) : List Token :=
  ⟨.ident part.name, part.position⟩ :: part.behind

/-- The enumerator with the comments that belong to it. -/
def enumerator (part : EnumeratorPart) : RawEnumerator where
  name := part.name
  position := part.position
  trailing := (attachedComments (placedComments part.behind)).map fun placed =>
    ⟨placed.comment.text, placed.comment.style⟩

/-- The enumerator with one more token behind its name. -/
def push (part : EnumeratorPart) (token : Token) : EnumeratorPart :=
  { part with behind := part.behind ++ [token] }

end EnumeratorPart

/-- The line on which the latest of some comments ends, if it belongs to the enumerator before them. -/
def attachedEnd? : List PlacedComment → Option Nat
  | [] => none
  | latest :: earlier => if attaches earlier latest then some latest.comment.endLine else none

/-- Of the comments before it, a comment needs to know only where the latest one ends. -/
theorem attaches_eq (earlier : List PlacedComment) (placed : PlacedComment) :
    attaches earlier placed = (placed.comment.trailing ||
      (isContinuation placed.comment.text &&
        (attachedEnd? earlier).any fun endLine => placed.line = endLine + 1)) := by
  cases earlier with
  | nil => simp [attaches, attachedEnd?]
  | cons previous earlier =>
    rw [attaches, attachedEnd?]
    by_cases hprevious : attaches earlier previous = true
    · simp [hprevious]
    · simp [hprevious]

theorem placedComments_concat_comment (tokens : List Token) {token : Token} {comment : Comment}
    (h : token.comment? = some comment) :
    placedComments (tokens ++ [token]) = placedComments tokens ++ [⟨comment, token.position.line⟩] := by
  simp [placedComments, Token.placedComment?, h]

theorem placedComments_concat_code (tokens : List Token) {token : Token} (h : token.comment? = none) :
    placedComments (tokens ++ [token]) = placedComments tokens := by
  simp [placedComments, Token.placedComment?, h]

/-- One more comment behind an enumerator is one more that may belong to it. -/
theorem EnumeratorPart.enumerator_push_comment (part : EnumeratorPart) {token : Token}
    {comment : Comment} (h : token.comment? = some comment) :
    (part.push token).enumerator =
      { part.enumerator with
        trailing := part.enumerator.trailing ++
          if attaches (placedComments part.behind).reverse ⟨comment, token.position.line⟩ then
            [⟨comment.text, comment.style⟩]
          else [] } := by
  have hplaced := placedComments_concat_comment part.behind h
  have hkept : attachedComments (placedComments (part.push token).behind) =
      attachedComments (placedComments part.behind) ++
        if attaches (placedComments part.behind).reverse ⟨comment, token.position.line⟩ then
          [⟨comment, token.position.line⟩]
        else [] := by
    rw [push, hplaced, attachedComments, filterEarlier_concat]
    rfl
  change RawEnumerator.mk part.name part.position
    ((attachedComments (placedComments (part.push token).behind)).map _) = _
  rw [hkept, List.map_append]
  split <;> rfl

theorem EnumeratorPart.enumerator_push_code (part : EnumeratorPart) {token : Token}
    (h : token.comment? = none) : (part.push token).enumerator = part.enumerator := by
  unfold enumerator push
  rw [placedComments_concat_code part.behind h]

/-- What a state of the reader holds of the enumerators of a body. -/
structure BodyState.Holds (state : BodyState) (parts : List EnumeratorPart) : Prop where
  enumerators : state.enumerators = (parts.map EnumeratorPart.enumerator).reverse
  attachedEnd : ∀ part ∈ parts.getLast?,
    state.attachedEnd = attachedEnd? (placedComments part.behind).reverse

/-- What a state of the reader holds when these tokens were read. -/
def BodyState.HasRead (state : BodyState) (read : List Token) : Prop :=
  ∃ lead parts, read = lead ++ parts.flatMap EnumeratorPart.tokens ∧ state.Holds parts

namespace BodyState

variable {state : BodyState} {parts : List EnumeratorPart} {part : EnumeratorPart} {read : List Token}
  {token : Token}

theorem holds_nil : state.Holds [] ↔ state.enumerators = [] :=
  ⟨fun h => h.enumerators, fun h => ⟨h, by simp⟩⟩

theorem holds_concat : state.Holds (parts ++ [part]) ↔
    state.enumerators = part.enumerator :: (parts.map EnumeratorPart.enumerator).reverse ∧
      state.attachedEnd = attachedEnd? (placedComments part.behind).reverse := by
  constructor
  · intro h
    exact ⟨by simp [h.enumerators], h.attachedEnd part (by simp)⟩
  · rintro ⟨henumerators, hend⟩
    refine ⟨by simp [henumerators], ?_⟩
    intro other hother
    obtain rfl : part = other := by simpa using hother
    exact hend

/-- The state of the reader says whether a comment belongs to the latest enumerator. -/
theorem Holds.attaches (h : state.Holds (parts ++ [part])) (comment : Comment) (line : Nat) :
    state.attaches comment line =
      Scan.attaches (placedComments part.behind).reverse ⟨comment, line⟩ := by
  rw [attaches_eq, BodyState.attaches, (holds_concat.1 h).2]

/-- A comment behind an enumerator. -/
theorem Holds.onComment (h : state.Holds (parts ++ [part])) {comment : Comment}
    (hcomment : token.comment? = some comment) :
    (state.onComment comment token.position.line).Holds (parts ++ [part.push token]) := by
  obtain ⟨hlatest, hend⟩ := holds_concat.1 h
  have hlast : attachedEnd? (placedComments (part.push token).behind).reverse =
      if state.attaches comment token.position.line then some comment.endLine else none := by
    rw [EnumeratorPart.push, placedComments_concat_comment part.behind hcomment, List.reverse_append,
      List.reverse_singleton, List.singleton_append, attachedEnd?, h.attaches]
  have hpushed := part.enumerator_push_comment hcomment
  rw [← h.attaches] at hpushed
  rw [holds_concat, hlast, hpushed, BodyState.onComment, hlatest]
  dsimp only
  by_cases hattached : state.attaches comment token.position.line = true
  · rw [if_pos hattached, if_pos hattached, if_pos hattached]
    exact ⟨rfl, rfl⟩
  · rw [if_neg hattached, if_neg hattached, if_neg hattached, List.append_nil]
    exact ⟨rfl, rfl⟩

/-- Code behind an enumerator that names no other one. -/
theorem Holds.code (h : state.Holds (parts ++ [part])) (hcode : token.comment? = none)
    {after : BodyState} (henumerators : after.enumerators = state.enumerators)
    (hend : after.attachedEnd = state.attachedEnd) : after.Holds (parts ++ [part.push token]) := by
  obtain ⟨hlatest, hlast⟩ := holds_concat.1 h
  rw [holds_concat, part.enumerator_push_code hcode, EnumeratorPart.push,
    placedComments_concat_code part.behind hcode]
  exact ⟨henumerators.trans hlatest, hend.trans hlast⟩

/-- The name of one more enumerator, to which no comment belongs yet. -/
theorem Holds.name (h : state.Holds parts) {after : BodyState} {name : String} {position : Position}
    (henumerators : after.enumerators = { name, position } :: state.enumerators)
    (hend : after.attachedEnd = none) : after.Holds (parts ++ [⟨name, position, []⟩]) := by
  rw [holds_concat, henumerators, h.enumerators]
  exact ⟨rfl, hend⟩

theorem tokens_push (lead : List Token) (parts : List EnumeratorPart) (part : EnumeratorPart)
    (token : Token) :
    lead ++ (parts ++ [part]).flatMap EnumeratorPart.tokens ++ [token] =
      lead ++ (parts ++ [part.push token]).flatMap EnumeratorPart.tokens := by
  simp [EnumeratorPart.tokens, EnumeratorPart.push]

theorem HasRead.onComment (h : state.HasRead read) {comment : Comment}
    (hcomment : token.comment? = some comment) :
    (state.onComment comment token.position.line).HasRead (read ++ [token]) := by
  obtain ⟨lead, parts, rfl, hholds⟩ := h
  obtain rfl | ⟨parts, part, rfl⟩ := parts.eq_nil_or_concat'
  · refine ⟨lead ++ [token], [], by simp, ?_⟩
    have hnone := holds_nil.1 hholds
    rw [holds_nil]
    unfold BodyState.onComment
    split
    · exact hnone
    · simp_all
  · exact ⟨lead, parts ++ [part.push token], tokens_push .., hholds.onComment hcomment⟩

theorem HasRead.onCode (h : state.HasRead read) (hcode : token.comment? = none)
    (next : Option Token) : (state.onCode token next).HasRead (read ++ [token]) := by
  obtain ⟨lead, parts, rfl, hholds⟩ := h
  obtain ⟨hsame, hend⟩ | ⟨name, hident, hend, hnew⟩ := onCode_cases state token next
  · obtain rfl | ⟨parts, part, rfl⟩ := parts.eq_nil_or_concat'
    · exact ⟨lead ++ [token], [], by simp, holds_nil.2 (hsame.trans (holds_nil.1 hholds))⟩
    · exact ⟨lead, parts ++ [part.push token], tokens_push .., hholds.code hcode hsame hend⟩
  · have htoken : token = ⟨.ident name, token.position⟩ := by
      rw [← Token.kind_of_ident? hident]
    refine ⟨lead, parts ++ [⟨name, token.position, []⟩], ?_, hholds.name hnew hend⟩
    simp [EnumeratorPart.tokens, ← htoken]

end BodyState

/-- Where the reader of a body stops: at the closing brace, at a semicolon or at the end. -/
def Body.StopsAt (body : Body) (stop : List Token) : Prop :=
  if body.closed then ∃ closing, closing.isPunct '\x7d' = true ∧ stop = closing :: body.rest
  else stop = body.rest ∧ ∀ token ∈ stop.head?, token.isPunct ';' = true

/-- What is read of a body, behind tokens that were read before. -/
theorem readBody_hasRead {state : BodyState} {read : List Token} (h : state.HasRead read)
    (tokens : List Token) :
    ∃ body stop, tokens = body ++ stop ∧ (readBody state tokens).StopsAt stop ∧
      ∃ (lead : List Token) (parts : List EnumeratorPart),
        read ++ body = lead ++ parts.flatMap EnumeratorPart.tokens ∧
          (readBody state tokens).enumerators = parts.map EnumeratorPart.enumerator := by
  have hstopped {state : BodyState} {read : List Token} (h : state.HasRead read) :
      ∃ (lead : List Token) (parts : List EnumeratorPart),
        read ++ [] = lead ++ parts.flatMap EnumeratorPart.tokens ∧
          state.enumerators.reverse = parts.map EnumeratorPart.enumerator := by
    obtain ⟨lead, parts, hread, hholds⟩ := h
    exact ⟨lead, parts, by rw [hread, List.append_nil], by simp [hholds.enumerators]⟩
  fun_induction readBody state tokens generalizing read with
  | case1 state => exact ⟨[], [], rfl, by simp [Body.StopsAt], hstopped h⟩
  | case2 state token rest comment hcomment ih =>
    obtain ⟨body, stop, rfl, hstop, hparts⟩ := ih (h.onComment hcomment)
    rw [List.append_assoc] at hparts
    exact ⟨token :: body, stop, rfl, hstop, hparts⟩
  | case3 state token rest hcomment hclosing =>
    have hbrace : token.isPunct '\x7d' = true := by
      simp only [Bool.and_eq_true] at hclosing
      exact hclosing.2
    exact ⟨[], token :: rest, rfl, by simpa [Body.StopsAt] using hbrace, hstopped h⟩
  | case4 state token rest hcomment hclosing hsemicolon =>
    have hmark : token.isPunct ';' = true := by
      simp only [Bool.and_eq_true] at hsemicolon
      exact hsemicolon.2
    exact ⟨[], token :: rest, rfl, by simpa [Body.StopsAt] using hmark, hstopped h⟩
  | case5 state token rest hcomment hclosing hsemicolon ih =>
    obtain ⟨body, stop, hrest, hstop, hparts⟩ := ih (h.onCode hcomment _)
    rw [List.append_assoc] at hparts
    exact ⟨token :: body, stop, by rw [hrest]; rfl, hstop, hparts⟩

/-- An enum of a source taken apart. Its keyword stands behind `before`, its body is opened by `brace` and
read up to `stop`, and it is made up of the tokens `lead`, which hold no enumerator, and of the
enumerators with the tokens behind their names. -/
structure TakenApart (source : String) (raw : RawEnum) (before after : List Token) (brace : Token)
    (body stop lead : List Token) (parts : List EnumeratorPart) : Prop where
  keyword : tokenize source = before ++ ⟨.ident "enum", raw.position⟩ :: after
  inside : enumBody after = brace :: (body ++ stop)
  opening : brace.isPunct '\x7b' = true
  ending : (readBody {} (body ++ stop)).StopsAt stop
  closed : raw.closed = (readBody {} (body ++ stop)).closed
  split : body = lead ++ parts.flatMap EnumeratorPart.tokens
  enumerators : raw.enumerators = parts.map EnumeratorPart.enumerator

/-- The body of every enum that is found is made up of its enumerators, each with the comments behind its
name up to the next name. Of these comments those belong to it that are trailing, or that go on with the
comment right above them which belongs to it as well. No other comment belongs to any enumerator, and
each enumerator has its comments in the order of the source. -/
theorem trailing_eq_attachedComments (source : String) : ∀ raw ∈ (scan source).enums,
    ∃ before after brace body stop lead parts,
      TakenApart source raw before after brace body stop lead parts := by
  intro raw hraw
  obtain ⟨state, token, rest, hvisits, hfound⟩ := exists_visits .start _ hraw
  obtain ⟨-, after, henters, brace, inside, hinside, hbody⟩ := step_found hfound
  obtain ⟨before, hbefore⟩ := henters.suffix.trans hvisits.suffix
  have hempty : ({} : BodyState).HasRead [] := ⟨[], [], rfl, BodyState.holds_nil.2 rfl⟩
  obtain ⟨body, stop, rfl, hstop, lead, parts, hparts, henumerators⟩ :=
    readBody_hasRead hempty inside
  exact ⟨before, after, brace, body, stop, lead, parts, hbefore.symm, hinside, hbody.opening, hstop,
    hbody.closed, hparts, hbody.enumerators.trans henumerators⟩

/-- A comment before the first enumerator, a trailing one with one that goes on with it, and one that
would go on but for the gap. -/
def attachedText : String :=
  "enum e \x7b // < none\n a = f(1, // one\n // < two\n\n // < three\n 2), /* four */ u \x7d;"

theorem trailing_eq_attachedComments_attachedText :
    ∃ raw ∈ (scan attachedText).enums,
      (raw.enumerators.map fun enumerator => enumerator.trailing.map (·.text)) =
        [["// one", "// < two", "/* four */"], []] ∧
      ∃ before after brace body stop lead parts,
        TakenApart attachedText raw before after brace body stop lead parts := by
  have hfound : (scan attachedText).enums.map (fun raw => raw.enumerators.map fun enumerator =>
      enumerator.trailing.map (·.text)) = [[["// one", "// < two", "/* four */"], []]] := by
    decide +kernel
  obtain ⟨raw, hraw, htrailing⟩ := List.mem_map.1 (hfound ▸ List.mem_singleton_self _)
  exact ⟨raw, hraw, htrailing, trailing_eq_attachedComments attachedText raw hraw⟩

end EnumConverter.Scan
