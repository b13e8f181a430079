import EnumConverter.Annotation.Directive
import Mathlib.Data.List.Basic

namespace EnumConverter.Annotation

open Source

/-- The conversion that the first word of a line requests. -/
def request? (content : ContentLine) : Option Conversion :=
  (leadingWord? content.text).bind Conversion.ofKeyword?

/-- A line as it is reported. -/
def normalLine (content : ContentLine) : ContentLine :=
  ⟨content.line, normalize content.text⟩

/-- Whether a line has words, but none that request anything. -/
def isUnrecognized (content : ContentLine) : Bool :=
  (leadingWord? content.text).isSome && (request? content).isNone

namespace Marker

variable (marker : Marker) (lines : List ContentLine)

/-- The lines below the first marker line that are no marker lines themselves. -/
def directiveLines : List ContentLine :=
  (lines.dropWhile (!marker.opens ·)).filter (!marker.opens ·)

/-- The lines below the marker that are not understood. Blank lines are not among them. -/
def unrecognizedLines : List ContentLine :=
  (marker.directiveLines lines).filter isUnrecognized

end Marker

namespace Directives

theorem contains_add (directives : Directives) (content : ContentLine) (kind : Conversion) :
    (directives.add content).conversions.contains kind = true ↔
      directives.conversions.contains kind = true ∨ request? content = some kind := by
  unfold add request?
  split
  · rename_i hword
    simp [hword]
  · rename_i word hword
    rw [hword, Option.bind_some]
    split
    · rename_i other hkind
      rw [hkind, ConversionSet.contains_insert]
      simp [or_comm]
    · rename_i hkind
      simp [hkind]

theorem unrecognized_add (directives : Directives) (content : ContentLine) :
    (directives.add content).unrecognized =
      directives.unrecognized ++ if isUnrecognized content then [normalLine content] else [] := by
  unfold add isUnrecognized request? normalLine
  split
  · rename_i hword
    simp [hword]
  · rename_i word hword
    rw [hword, Option.bind_some]
    split
    · rename_i hkind
      simp [hkind]
    · rename_i hkind
      simp [hkind]

theorem contains_foldl_add (lines : List ContentLine) (directives : Directives)
    (kind : Conversion) :
    (lines.foldl add directives).conversions.contains kind = true ↔
      directives.conversions.contains kind = true ∨ ∃ content ∈ lines, request? content = some kind := by
  induction lines generalizing directives with
  | nil => simp
  | cons content lines ih =>
    rw [List.foldl_cons, ih, contains_add, List.exists_mem_cons_iff, or_assoc]

theorem unrecognized_foldl_add (lines : List ContentLine) (directives : Directives) :
    (lines.foldl add directives).unrecognized =
      directives.unrecognized ++ (lines.filter isUnrecognized).map normalLine := by
  induction lines generalizing directives with
  | nil => simp
  | cons content lines ih =>
    rw [List.foldl_cons, ih, unrecognized_add, List.append_assoc, List.filter_cons]
    split
    · rw [List.map_cons, List.singleton_append]
    · rw [List.nil_append]

end Directives

namespace Marker

variable {marker : Marker} {lines : List ContentLine}

theorem directives?_eq_none_iff :
    marker.directives? lines = none ↔ ¬ ∃ content ∈ lines, marker.opens content = true := by
  induction lines with
  | nil => simp [directives?]
  | cons content lines ih =>
    rw [directives?, List.exists_mem_cons_iff]
    by_cases hopens : marker.opens content = true
    · rw [if_pos hopens]
      simp [hopens]
    · rw [if_neg hopens, ih]
      simp [hopens]

/-- The directives are collected from the lines that count, and from nothing else. -/
theorem directives?_eq_foldl {directives : Directives}
    (h : marker.directives? lines = some directives) :
    ∃ line, directives = (marker.directiveLines lines).foldl .add { markerLine := line } := by
  induction lines with
  | nil => simp [directives?] at h
  | cons content lines ih =>
    rw [directives?] at h
    rw [directiveLines]
    by_cases hopens : marker.opens content = true
    · rw [if_pos hopens] at h
      refine ⟨content.line, (Option.some.inj h).symm.trans ?_⟩
      simp [hopens]
    · rw [if_neg hopens] at h
      obtain ⟨line, hline⟩ := ih h
      refine ⟨line, ?_⟩
      rw [hline, List.dropWhile_cons_of_pos (by simpa using hopens)]
      rfl

theorem contains_of_directives? {directives : Directives}
    (h : marker.directives? lines = some directives) (kind : Conversion) :
    directives.conversions.contains kind = true ↔
      ∃ content ∈ marker.directiveLines lines, request? content = some kind := by
  obtain ⟨line, rfl⟩ := directives?_eq_foldl h
  have hempty : ({} : ConversionSet).contains kind = false := by cases kind <;> rfl
  rw [Directives.contains_foldl_add]
  simp [hempty]

theorem unrecognized_of_directives? {directives : Directives}
    (h : marker.directives? lines = some directives) :
    directives.unrecognized = (marker.unrecognizedLines lines).map normalLine := by
  obtain ⟨line, rfl⟩ := directives?_eq_foldl h
  rw [Directives.unrecognized_foldl_add, unrecognizedLines]
  rfl

end Marker

end EnumConverter.Annotation
