import EnumConverter.Emit.Code
import EnumConverter.Proofs.Inert.Code

namespace EnumConverter.Scan

open Source Text Emit

theorem nests_code (depth : Nat) {code : String} (h : settles 0 0 code = true) :
    Nests depth depth code.toList := by
  simpa using (nests_fixed h).inside depth

theorem nests_opening (depth : Nat) {code : String} (h : settles 0 1 code = true) :
    Nests depth (depth + 1) code.toList := by
  simpa [Nat.add_comm] using (nests_fixed h).inside depth

theorem nests_closing (depth : Nat) : Nests (depth + 1) depth "\x7d".toList := by
  have htext : "\x7d".toList = ['\x7d'] := rfl
  rw [htext]
  exact nests_closeBrace depth

theorem inert_comment {text : String} (h : '\n' ∉ text.toList) :
    Inert ("//" ++ text ++ "\n").toList := by
  have htext : ("//" ++ text ++ "\n").toList = '/' :: '/' :: text.toList ++ ['\n'] := by simp
  rw [htext]
  exact nests_lineComment 0 h

theorem isBlank_level (indent : Indent) (depth : Nat) :
    ∀ c ∈ (indent.level depth).toList, isBlank c = true := by
  induction depth with
  | zero => simp [Indent.level]
  | succ depth ih =>
    intro c hc
    rw [Indent.level, String.toList_append, List.mem_append] at hc
    obtain hc | hc := hc
    · have hunit : indent.unit.toList.all isBlank = true := by cases indent <;> decide
      exact List.all_eq_true.1 hunit c hc
    · exact ih c hc

section Lines

variable (indent : Indent) {before between after : Nat}

theorem nests_render {line : CodeLine} (h : Nests before after line.text.toList) :
    Nests before after (line.render indent).toList := by
  have hlevel := nests_blanks before (isBlank_level indent line.depth)
  have hfeed : Nests after after ['\n'] := nests_blank after (by decide)
  have htext : (line.render indent).toList =
      (indent.level line.depth).toList ++ line.text.toList ++ ['\n'] := by
    simp [CodeLine.render]
  rw [htext]
  exact (hlevel.append h).append hfeed

theorem renderLines_append (first second : List CodeLine) :
    renderLines indent (first ++ second) = renderLines indent first ++ renderLines indent second := by
  induction first with
  | nil => simp [renderLines]
  | cons line first ih => simp [renderLines, ih, String.append_assoc]

theorem nests_renderLines_append {first second : List CodeLine}
    (hfirst : Nests before between (renderLines indent first).toList)
    (hsecond : Nests between after (renderLines indent second).toList) :
    Nests before after (renderLines indent (first ++ second)).toList := by
  rw [renderLines_append, String.toList_append]
  exact hfirst.append hsecond

theorem nests_renderLines_cons {line : CodeLine} {lines : List CodeLine}
    (hline : Nests before between line.text.toList)
    (hlines : Nests between after (renderLines indent lines).toList) :
    Nests before after (renderLines indent (line :: lines)).toList := by
  rw [renderLines, String.toList_append]
  exact (nests_render indent hline).append hlines

theorem nests_renderLines {lines : List CodeLine} {depth : Nat}
    (h : ∀ line ∈ lines, Nests depth depth line.text.toList) :
    Nests depth depth (renderLines indent lines).toList := by
  induction lines with
  | nil => exact .nil depth
  | cons line lines ih =>
    exact nests_renderLines_cons indent (h line (by simp))
      (ih fun other hother => h other (by simp [hother]))

theorem nests_renderLines_flatMap {α : Type} {items : List α} {code : α → List CodeLine} {depth : Nat}
    (h : ∀ item ∈ items, Nests depth depth (renderLines indent (code item)).toList) :
    Nests depth depth (renderLines indent (items.flatMap code)).toList := by
  induction items with
  | nil => exact .nil depth
  | cons item items ih =>
    rw [List.flatMap_cons]
    exact nests_renderLines_append indent (h item (by simp))
      (ih fun other hother => h other (by simp [hother]))

/-- A conditional is closed again, if its condition is closed and its statements are. -/
theorem nests_conditional {depth : Nat} (level : Nat) {condition : String} {statements : List String}
    (hcondition : Nests depth (depth + 1) ("if (" ++ condition ++ ") \x7b").toList)
    (hstatements : ∀ statement ∈ statements, Nests (depth + 1) (depth + 1) statement.toList) :
    Nests depth depth (renderLines indent (conditional level condition statements)).toList := by
  refine nests_renderLines_append indent (nests_renderLines_cons indent hcondition
    (nests_renderLines indent ?_)) (nests_renderLines_cons indent (nests_closing depth) (.nil depth))
  intro line hline
  obtain ⟨statement, hstatement, rfl⟩ := List.mem_map.1 hline
  exact hstatements statement hstatement

/-- A function is closed again, if its signature and its body are. -/
theorem nests_function {signature : String} {body : List CodeLine}
    (hsignature : Nests 0 1 (signature ++ " \x7b").toList)
    (hbody : Nests 1 1 (renderLines indent body).toList) :
    Inert (renderLines indent (function signature body)).toList :=
  nests_renderLines_append indent (nests_renderLines_cons indent hsignature hbody)
    (nests_renderLines_cons indent (nests_closing 0) (.nil 0))

end Lines

end EnumConverter.Scan
