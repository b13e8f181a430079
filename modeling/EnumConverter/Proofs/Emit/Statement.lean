import EnumConverter.Proofs.Inert.Line
import EnumConverter.Proofs.Text.Line

namespace EnumConverter.Emit

open Text

/-- A statement with the headers of the blocks around it, the innermost first. -/
structure Guarded where
  blocks : List String
  text : String
deriving DecidableEq, Repr

/-- The statements of a conditional inside the given blocks. -/
def branch (blocks : List String) (condition : String) (texts : List String) : List Guarded :=
  texts.map (⟨("if (" ++ condition ++ ")") :: blocks, ·⟩)

/-- The lines of code without their indentation. -/
def codeTexts (code : String) : List String :=
  (splitAt '\n' code.toList).map fun line => String.ofList (trimStart line)

/-- The statements in the lines of code that stand inside the given blocks. There are none if the code
closes a block that is not open or leaves one open, or if a line is no line of code. -/
def readStatements (blocks : List String) : (texts : List String) → Option (List Guarded)
  | [] => if blocks = [] then some [] else none
  | text :: rest =>
    match dropEnd? " \x7b".toList text.toList with
    | some header => readStatements (String.ofList header :: blocks) rest
    | none =>
      if text = "" then readStatements blocks rest
      else if text = "\x7d" then
        match blocks with
        | [] => none
        | _ :: outer => readStatements outer rest
      else if text.toList.getLast? = some ';' then
        (readStatements blocks rest).map (⟨blocks, text⟩ :: ·)
      else none

/-- The statements of code. -/
def statements? (code : String) : Option (List Guarded) :=
  readStatements [] (codeTexts code)

/-- A text that stands on one line and is told apart from its indentation. -/
structure IsLine (text : String) : Prop where
  ne_empty : text ≠ ""
  oneLine : '\n' ∉ text.toList
  head : text.toList.head?.any isBlank = false

/-- A line with a statement. -/
structure IsStatement (text : String) : Prop extends IsLine text where
  last : text.toList.getLast? = some ';'

instance (text : String) : Decidable (IsLine text) :=
  decidable_of_iff
    (text ≠ "" ∧ '\n' ∉ text.toList ∧ text.toList.head?.any isBlank = false)
    ⟨fun h => ⟨h.1, h.2.1, h.2.2⟩, fun h => ⟨h.ne_empty, h.oneLine, h.head⟩⟩

instance (text : String) : Decidable (IsStatement text) :=
  decidable_of_iff (IsLine text ∧ text.toList.getLast? = some ';')
    ⟨fun h => ⟨h.1, h.2⟩, fun h => ⟨h.toIsLine, h.last⟩⟩

theorem IsLine.append {text more : String} (h : IsLine text) (hmore : '\n' ∉ more.toList) :
    IsLine (text ++ more) := by
  obtain ⟨c, cs, hcs⟩ := List.exists_cons_of_ne_nil (mt String.toList_eq_nil_iff.1 h.ne_empty)
  exact ⟨by simp [h.ne_empty], by simp [h.oneLine, hmore], by simpa [hcs] using h.head⟩

theorem IsLine.statement {text ending : String} (h : IsLine text) (hending : '\n' ∉ ending.toList)
    (hlast : ending.toList.getLast? = some ';') : IsStatement (text ++ ending) :=
  ⟨h.append hending, by simp [List.getLast?_append, hlast]⟩

theorem lineFeed_notMem_level (indent : Indent) (depth : Nat) :
    '\n' ∉ (indent.level depth).toList := by
  induction depth with
  | zero => simp [Indent.level]
  | succ depth ih =>
    have hunit : '\n' ∉ indent.unit.toList := by cases indent <;> decide
    simp [Indent.level, hunit, ih]

theorem codeTexts_render (indent : Indent) {line : CodeLine} (hline : '\n' ∉ line.text.toList)
    (hhead : line.text.toList.head?.any isBlank = false) (rest : String) :
    codeTexts (line.render indent ++ rest) = line.text :: codeTexts rest := by
  have hblank := Scan.isBlank_level indent line.depth
  have hfeed : '\n' ∉ (indent.level line.depth).toList ++ line.text.toList := by
    simp [lineFeed_notMem_level, hline]
  have htext : (line.render indent ++ rest).toList =
      ((indent.level line.depth).toList ++ line.text.toList) ++ '\n' :: rest.toList := by
    simp [CodeLine.render]
  have hfirst : ∀ c ∈ line.text.toList.head?, isBlank c = false := by
    intro c hc
    rw [Option.mem_def.1 hc] at hhead
    exact hhead
  have htrim : trimStart ((indent.level line.depth).toList ++ line.text.toList) = line.text.toList := by
    exact dropWhile_append_of_head hblank hfirst
  rw [codeTexts, htext, splitAt_append hfeed, List.map_cons, htrim, String.ofList_toList]
  rfl

theorem dropEnd?_statement {text : String} (h : text.toList.getLast? = some ';') :
    dropEnd? " \x7b".toList text.toList = none := by
  have hhead : text.toList.reverse.head? = some ';' := by simpa using h
  obtain ⟨cs, hcs⟩ := List.head?_eq_some_iff.1 hhead
  simp [dropEnd?, hcs, dropStart?]

theorem readStatements_statement (blocks : List String) {text : String}
    (h : text.toList.getLast? = some ';') (rest : List String) :
    readStatements blocks (text :: rest) = (readStatements blocks rest).map (⟨blocks, text⟩ :: ·) := by
  have hempty : text ≠ "" := by rintro rfl; simp at h
  have hclose : text ≠ "\x7d" := by rintro rfl; simp at h
  simp only [readStatements, dropEnd?_statement h, if_neg hempty, if_neg hclose, if_pos h]

theorem readStatements_header (blocks : List String) (header : String) (rest : List String) :
    readStatements blocks ((header ++ " \x7b") :: rest) = readStatements (header :: blocks) rest := by
  simp only [readStatements, String.toList_append, dropEnd?_append, String.ofList_toList]

theorem readStatements_close (header : String) (blocks rest : List String) :
    readStatements (header :: blocks) ("\x7d" :: rest) = readStatements blocks rest :=
  rfl

theorem readStatements_blank (blocks rest : List String) :
    readStatements blocks ("" :: rest) = readStatements blocks rest := by
  simp [readStatements, dropEnd?, dropStart?]

/-- Inside the given blocks, lines of code are read as the statements `found`, whatever follows. -/
def Reads (indent : Indent) (blocks : List String) (lines : List CodeLine) (found : List Guarded) :
    Prop :=
  ∀ rest, readStatements blocks (codeTexts (renderLines indent lines ++ rest)) =
    (readStatements blocks (codeTexts rest)).map (found ++ ·)

theorem statements?_renderLines {indent : Indent} {lines : List CodeLine} {found : List Guarded}
    (h : Reads indent [] lines found) : statements? (renderLines indent lines) = some found := by
  have hend : readStatements [] (codeTexts "") = some [] := by decide
  have hread := h ""
  rw [String.append_empty, hend] at hread
  simpa [statements?] using hread

section Reads

variable {indent : Indent} {blocks : List String}

theorem Reads.nil : Reads indent blocks [] [] := by
  intro rest
  simp [renderLines]

theorem Reads.append {first second : List CodeLine} {found more : List Guarded}
    (hfirst : Reads indent blocks first found) (hsecond : Reads indent blocks second more) :
    Reads indent blocks (first ++ second) (found ++ more) := by
  intro rest
  rw [Scan.renderLines_append, String.append_assoc, hfirst, hsecond, Option.map_map]
  simp [Function.comp_def]

theorem Reads.flatMap {α : Type} {items : List α} {code : α → List CodeLine}
    {found : α → List Guarded}
    (h : ∀ item ∈ items, Reads indent blocks (code item) (found item)) :
    Reads indent blocks (items.flatMap code) (items.flatMap found) := by
  induction items with
  | nil => exact .nil
  | cons item items ih =>
    rw [List.flatMap_cons, List.flatMap_cons]
    exact (h item (by simp)).append (ih fun other hother => h other (by simp [hother]))

theorem codeTexts_renderLines_cons {line : CodeLine} (h : IsLine line.text) (lines : List CodeLine)
    (rest : String) :
    codeTexts (renderLines indent (line :: lines) ++ rest) =
      line.text :: codeTexts (renderLines indent lines ++ rest) := by
  rw [renderLines, String.append_assoc, codeTexts_render indent h.oneLine h.head]

theorem Reads.cons (depth : Nat) {text : String} {lines : List CodeLine} {found : List Guarded}
    (htext : IsStatement text) (hlines : Reads indent blocks lines found) :
    Reads indent blocks (⟨depth, text⟩ :: lines) (⟨blocks, text⟩ :: found) := by
  intro rest
  rw [codeTexts_renderLines_cons htext.toIsLine, readStatements_statement blocks htext.last, hlines,
    Option.map_map]
  rfl

theorem reads_blank (depth : Nat) : Reads indent blocks [⟨depth, ""⟩] [] := by
  intro rest
  have htexts := codeTexts_render indent (by simp : '\n' ∉ (CodeLine.mk depth "").text.toList) (by simp)
  rw [renderLines, String.append_assoc, htexts, readStatements_blank]
  exact Reads.nil rest

theorem Reads.block (depth : Nat) {header : String} {body : List CodeLine} {found : List Guarded}
    (hheader : IsLine (header ++ " \x7b")) (hbody : Reads indent (header :: blocks) body found) :
    Reads indent blocks (⟨depth, header ++ " \x7b"⟩ :: body ++ [⟨depth, "\x7d"⟩]) found := by
  intro rest
  have hclose : IsLine "\x7d" := by decide
  rw [List.cons_append, codeTexts_renderLines_cons hheader, readStatements_header,
    Scan.renderLines_append, String.append_assoc, hbody, codeTexts_renderLines_cons hclose,
    readStatements_close]
  simp [renderLines]

theorem reads_statements (depth : Nat) {texts : List String}
    (h : ∀ text ∈ texts, IsStatement text) :
    Reads indent blocks (texts.map (⟨depth, ·⟩)) (texts.map (⟨blocks, ·⟩)) := by
  induction texts with
  | nil => exact .nil
  | cons text texts ih =>
    exact .cons depth (h text (by simp)) (ih fun other hother => h other (by simp [hother]))

/-- The statements of a conditional are found inside its condition. -/
theorem reads_conditional (depth : Nat) {condition : String} {texts : List String}
    (hcondition : '\n' ∉ condition.toList) (htexts : ∀ text ∈ texts, IsStatement text) :
    Reads indent blocks (conditional depth condition texts) (branch blocks condition texts) := by
  have hheader : "if (" ++ condition ++ ") \x7b" = ("if (" ++ condition ++ ")") ++ " \x7b" := by
    have hbrace : ") \x7b" = ")" ++ " \x7b" := by decide
    rw [hbrace, ← String.append_assoc]
  have hline : IsLine ("if (" ++ condition ++ ") \x7b") :=
    ((by decide : IsLine "if (").append hcondition).append (by decide)
  rw [hheader] at hline
  rw [conditional, hheader]
  exact .block depth hline (reads_statements (depth + 1) htexts)

theorem reads_function {signature : String} {body : List CodeLine} {found : List Guarded}
    (hsignature : IsLine (signature ++ " \x7b"))
    (hbody : Reads indent (signature :: blocks) body found) :
    Reads indent blocks (function signature body) found :=
  .block 0 hsignature hbody

end Reads

end EnumConverter.Emit
