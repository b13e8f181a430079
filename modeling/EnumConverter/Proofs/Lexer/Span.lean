import EnumConverter.Proofs.Lexer.Directive
import EnumConverter.Source.Token

namespace EnumConverter.Source

open Text

/-- The part of a text from one offset up to another. -/
structure Span where
  start : Nat
  stop : Nat
deriving DecidableEq, Repr

namespace Span

/-- Whether an offset lies in a part. -/
def Covers (span : Span) (offset : Nat) : Prop :=
  span.start ≤ offset ∧ offset < span.stop

/-- Whether two parts have no offset in common. -/
def Apart (span other : Span) : Prop :=
  span.stop ≤ other.start ∨ other.stop ≤ span.start

/-- The characters of a part. -/
def slice (span : Span) (source : List Char) : List Char :=
  (source.take span.stop).drop span.start

end Span

/-- Parts that are not empty, follow each other from `lower` on and end within the first `upper`
characters. -/
def Ordered (upper : Nat) : Nat → List Span → Prop
  | lower, [] => lower ≤ upper
  | lower, span :: spans =>
    lower ≤ span.start ∧ span.start < span.stop ∧ Ordered upper span.stop spans

/-- What a comment on line `line` says about the part of the text in which it stands. A line comment
goes up to the next line feed or the end of the text. -/
def Comment.StandsIn (comment : Comment) (line : Nat) (source : List Char) (span : Span) : Prop :=
  match comment.style with
  | .block =>
    ['/', '*'] <+: span.slice source ∧ comment.text = String.ofList (span.slice source) ∧
      comment.endLine = lineAt source span.stop
  | .line =>
    ['/', '/'] <+: span.slice source ∧ comment.text = String.ofList (trimEnd (span.slice source)) ∧
      comment.endLine = line ∧ '\n' ∉ span.slice source ∧
      (span.stop = source.length ∨ source[span.stop]? = some '\n')

/-- What a token says about the part of the text in which it stands. -/
def Token.StandsIn (token : Token) (source : List Char) (span : Span) : Prop :=
  token.position = positionAt source span.start ∧
    match token.kind with
    | .ident name => name = String.ofList (span.slice source)
    | .punct c => span.slice source = [c]
    | .pathSeparator => span.slice source = [':', ':']
    | .comment comment => comment.StandsIn token.position.line source span
    | .string | .character | .number => True

/-- A part that is a directive: it starts with a number sign that only blanks precede on its line, and
ends before the first line feed that is not escaped, or with the text. -/
structure DirectiveRun (source : List Char) (run : Span) : Prop where
  sign : source[run.start]? = some '#'
  alone : ∀ c ∈ lastLine (source.take run.start), isBlank c = true
  escaped : ∀ offset, run.Covers offset → source[offset]? = some '\n' →
    EndsEscaped (source.take offset)
  ended : run.stop = source.length ∨
    source[run.stop]? = some '\n' ∧ ¬ EndsEscaped (source.take run.stop)

/-- Why an offset belongs to no token: its character is blank, or it lies in a directive that no token
reaches into. The directive starts at `lower` or behind it. -/
def SkippedFrom (lower : Nat) (source : List Char) (spans : List Span) (offset : Nat) : Prop :=
  (∃ c, source[offset]? = some c ∧ isBlank c = true) ∨
    ∃ run : Span, lower ≤ run.start ∧ run.Covers offset ∧ DirectiveRun source run ∧
      ∀ span ∈ spans, span.Apart run

/-- Tokens with the parts of a text in which they stand, for a text that was read from the offset
`lower` on. -/
structure Tiles (source : List Char) (lower : Nat) (placed : List (Span × Token)) : Prop where
  ordered : Ordered source.length lower (placed.map (·.1))
  standsIn : ∀ span token, (span, token) ∈ placed → token.StandsIn source span
  skipped : ∀ offset, lower ≤ offset → offset < source.length →
    (∀ span ∈ placed.map (·.1), ¬ span.Covers offset) →
    SkippedFrom lower source (placed.map (·.1)) offset

section Laws

variable {source : List Char} {lower upper : Nat} {spans : List Span}

theorem Ordered.mono (hlower : lower ≤ upper) {bound : Nat} (h : Ordered bound upper spans) :
    Ordered bound lower spans := by
  cases spans with
  | nil => exact Nat.le_trans hlower h
  | cons span spans => exact ⟨Nat.le_trans hlower h.1, h.2⟩

theorem Ordered.bounds {bound : Nat} (h : Ordered bound lower spans) :
    ∀ span ∈ spans, lower ≤ span.start ∧ span.start < span.stop ∧ span.stop ≤ bound := by
  induction spans generalizing lower with
  | nil => simp
  | cons first spans ih =>
    obtain ⟨hlower, hfirst, hspans⟩ := h
    have hbound : first.stop ≤ bound := by
      cases spans with
      | nil => exact hspans
      | cons second spans =>
        have := ih hspans second (by simp)
        omega
    rintro span (_ | ⟨_, hmem⟩)
    · exact ⟨hlower, hfirst, hbound⟩
    · have := ih hspans span hmem
      omega

/-- Ordered parts have increasing starts. -/
theorem Ordered.pairwise {bound : Nat} (h : Ordered bound lower spans) :
    spans.Pairwise (·.start < ·.start) := by
  induction spans generalizing lower with
  | nil => exact .nil
  | cons first spans ih =>
    obtain ⟨-, hfirst, hspans⟩ := h
    refine .cons ?_ (ih hspans)
    intro span hmem
    have := hspans.bounds span hmem
    omega

theorem SkippedFrom.mono (hlower : lower ≤ upper) {offset : Nat}
    (h : SkippedFrom upper source spans offset) : SkippedFrom lower source spans offset := by
  obtain hblank | ⟨run, hstart, hrun⟩ := h
  · exact .inl hblank
  · exact .inr ⟨run, Nat.le_trans hlower hstart, hrun⟩

/-- Characters that belong to no token change nothing but the offset from which on the text was read. -/
theorem Tiles.skip {placed : List (Span × Token)} (hlower : lower ≤ upper)
    (h : Tiles source upper placed)
    (hskipped : ∀ offset, lower ≤ offset → offset < upper →
      SkippedFrom lower source (placed.map (·.1)) offset) : Tiles source lower placed where
  ordered := h.ordered.mono hlower
  standsIn := h.standsIn
  skipped := by
    intro offset hoffset hlength hcovers
    by_cases hinside : offset < upper
    · exact hskipped offset hoffset hinside
    · exact (h.skipped offset (by omega) hlength hcovers).mono hlower

/-- One more token in front stands before everything that was read behind it. -/
theorem Tiles.cons {placed : List (Span × Token)} {span : Span} {token : Token}
    (hspan : span.start < span.stop) (htoken : token.StandsIn source span)
    (h : Tiles source span.stop placed) : Tiles source span.start ((span, token) :: placed) where
  ordered := ⟨Nat.le_refl _, hspan, h.ordered⟩
  standsIn := by
    rintro other found (_ | ⟨_, hmem⟩)
    · exact htoken
    · exact h.standsIn other found hmem
  skipped := by
    intro offset hoffset hlength hcovers
    have houtside : ¬ span.Covers offset := hcovers span (by simp)
    have hbehind : span.stop ≤ offset := by
      unfold Span.Covers at houtside
      omega
    have hskipped := h.skipped offset hbehind hlength fun other hmem =>
      hcovers other (List.mem_cons_of_mem _ hmem)
    obtain hblank | ⟨run, hstart, hrun, hdirective, hapart⟩ := hskipped
    · exact .inl hblank
    · refine .inr ⟨run, by omega, hrun, hdirective, ?_⟩
      rintro other (_ | ⟨_, hmem⟩)
      · exact .inl hstart
      · exact hapart other hmem

end Laws

end EnumConverter.Source
