import EnumConverter.Text.Reach

namespace EnumConverter

open Text

/-- The characters from the first to the second, both included. -/
abbrev CharSpan := Char × Char

/-- One piece of a filter. -/
inductive FilterToken where
  | char (c : Char)
  | anyChar
  | anyRun
  /-- Any number of whole steps. -/
  | anySteps
  | within (spans : List CharSpan)
  | except (spans : List CharSpan)
deriving DecidableEq, Repr

/-- Why a text is no filter. The number is the place of the fault. -/
inductive FilterFault where
  | invalidSet (place : Nat)
  | tooManyStars (place : Nat)
  /-- Two stars that are not a whole step. -/
  | partialStep (place : Nat)
deriving DecidableEq, Repr

/-- The message for a fault. -/
def FilterFault.message (fault : FilterFault) : String :=
  let (place, reason) := match fault with
    | .invalidSet place => (place, "invalid range pattern")
    | .tooManyStars place => (place, "wildcards are either regular `*` or recursive `**`")
    | .partialStep place => (place, "recursive wildcards must form a single path component")
  "Pattern syntax error near position " ++ toString place ++ ": " ++ reason

/-- The spans that the inside of a set stands for. -/
def spansOf : List Char → List CharSpan
  | a :: '-' :: b :: rest => (a, b) :: spansOf rest
  | a :: rest => (a, a) :: spansOf rest
  | [] => []

/-- The inside of a set and what follows its bracket. The first character of the inside may be a
closing bracket itself. -/
def takeSet? : List Char → Option (List Char × List Char)
  | [] => none
  | first :: rest =>
    match rest.dropWhile (· ≠ ']') with
    | [] => none
    | _ :: behind => some (first :: rest.takeWhile (· ≠ ']'), behind)

/-- The token of a set behind its opening bracket, and what follows. -/
def setToken? : List Char → Option (FilterToken × List Char)
  | '!' :: rest => (takeSet? rest).map fun (inside, behind) => (.except (spansOf inside), behind)
  | rest => (takeSet? rest).map fun (inside, behind) => (.within (spansOf inside), behind)

theorem length_takeSet?_lt {cs inside behind : List Char} (h : takeSet? cs = some (inside, behind)) :
    behind.length < cs.length := by
  unfold takeSet? at h
  split at h
  · simp at h
  · next first rest =>
    have hdrop : (rest.dropWhile (· ≠ ']')).length ≤ rest.length :=
      (List.dropWhile_sublist _).length_le
    split at h
    · simp at h
    · next _ tail htail =>
      rw [htail] at hdrop
      obtain ⟨-, rfl⟩ := Prod.mk.inj (Option.some.inj h)
      simp only [List.length_cons] at *
      omega

theorem length_setToken?_lt {cs behind : List Char} {token : FilterToken}
    (h : setToken? cs = some (token, behind)) : behind.length < cs.length := by
  unfold setToken? at h
  split at h
  · next rest =>
    obtain ⟨⟨inside, tail⟩, htake, hpair⟩ := Option.map_eq_some_iff.1 h
    obtain ⟨-, rfl⟩ := Prod.mk.inj hpair
    have := length_takeSet?_lt htake
    simp only [List.length_cons]
    omega
  · obtain ⟨⟨inside, tail⟩, htake, hpair⟩ := Option.map_eq_some_iff.1 h
    obtain ⟨-, rfl⟩ := Prod.mk.inj hpair
    exact length_takeSet?_lt htake

/-- Reads the tokens of a filter from the character at `place`, behind the character `previous`. -/
def filterTokens (place : Nat) (previous : Option Char) (cs : List Char) :
    Except FilterFault (List FilterToken) :=
  match cs with
  | [] => .ok []
  | '*' :: '*' :: '*' :: _ => .error (.tooManyStars (place + 2))
  | '*' :: '*' :: rest =>
    if previous.any (· ≠ '/') then .error (.partialStep (place - 1))
    else match rest with
      | [] => .ok [.anySteps]
      | '/' :: rest => do
        let tokens ← filterTokens (place + 3) (some '/') rest
        return .anySteps :: tokens
      | _ => .error (.partialStep (place + 2))
  | '*' :: rest => do
    let tokens ← filterTokens (place + 1) (some '*') rest
    return .anyRun :: tokens
  | '?' :: rest => do
    let tokens ← filterTokens (place + 1) (some '?') rest
    return .anyChar :: tokens
  | '[' :: rest =>
    match hset : setToken? rest with
    | none => .error (.invalidSet place)
    | some (token, behind) => do
      have := length_setToken?_lt hset
      let tokens ←
        filterTokens (place + 1 + (rest.length - behind.length)) (some ']') behind
      return token :: tokens
  | c :: rest => do
    let tokens ← filterTokens (place + 1) (some c) rest
    return .char c :: tokens
termination_by cs.length
decreasing_by all_goals simp only [List.length_cons]; omega

/-- Whether a span of a set contains a character. -/
def spansContain (spans : List CharSpan) (c : Char) : Bool :=
  spans.any fun (first, last) => first ≤ c && c ≤ last

/-- The places of a text that a token reaches. -/
def FilterToken.advance (text : List Char) (reach : Reach) : FilterToken → Reach
  | .char c => reach.one (· = c) text
  | .anyChar => reach.one (fun _ => true) text
  | .anyRun => reach.run (fun _ => true) text
  | .anySteps => reach.steps (· = '/') text
  | .within spans => reach.one (spansContain spans) text
  | .except spans => reach.one (!spansContain spans ·) text

/-- Whether a text fits tokens behind what is reached already. At the end of a filter, any number of
steps fits every text. -/
def fitsTokens (text : List Char) (reach : Reach) : List FilterToken → Bool
  | [] => reach.atEnd
  | [.anySteps] => (FilterToken.anyRun.advance text reach).atEnd
  | token :: rest => fitsTokens text (token.advance text reach) rest

/-- A filter for paths. -/
structure Filter where
  tokens : List FilterToken
deriving DecidableEq, Repr

namespace Filter

/-- The filter that a text stands for. -/
def parse (text : String) : Except FilterFault Filter :=
  (filterTokens 0 none text.toList).map Filter.mk

/-- Whether a path fits a filter. -/
def fits (filter : Filter) (path : String) : Bool :=
  fitsTokens path.toList (.start path.toList) filter.tokens

end Filter

end EnumConverter
