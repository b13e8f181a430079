import EnumConverter.Proofs.Build.Relined
import EnumConverter.Proofs.Document.Block
import EnumConverter.Proofs.Spelling.Opaque
import EnumConverter.Proofs.Text.Line

namespace EnumConverter.Source

open Text Annotation

/-- Which mark stands right behind the opening delimiter of a comment. -/
inductive Flavour where
  | plain
  /-- The second character of the delimiter once more. -/
  | doubled
  | exclaimed
deriving DecidableEq, Repr

/-- How a group of comments is written. -/
inductive GroupStyle where
  /-- Each line as a comment of its own. -/
  | lines (flavour : Flavour)
  /-- All lines as one comment. -/
  | block (flavour : Flavour)
deriving DecidableEq, Repr

/-- A line that can be written in every style: it is trimmed, and it does not close a block comment. It
may start with a star, as only the star of its row is dropped. -/
structure GroupLine (content : List Char) : Prop where
  trimmed : trim content = content
  lineFeed : '\n' ∉ content
  delimiter : ¬ ['*', '/'] <:+: content

namespace Flavour

/-- The mark behind two slashes. -/
def lineMark : Flavour → List Char
  | .plain => []
  | .doubled => ['/']
  | .exclaimed => ['!']

/-- The mark behind a slash and a star. -/
def blockMark : Flavour → List Char
  | .plain => []
  | .doubled => ['*']
  | .exclaimed => ['!']

/-- A line as a comment of its own. -/
def lineRow (flavour : Flavour) (content : List Char) : List Char :=
  '/' :: '/' :: (flavour.lineMark ++ ' ' :: content)

/-- The row that opens a block comment. -/
def openingRow (flavour : Flavour) : List Char :=
  '/' :: '*' :: flavour.blockMark

end Flavour

/-- A line inside a block comment. -/
def blockRow (content : List Char) : List Char :=
  " * ".toList ++ content

namespace GroupStyle

/-- The rows of the text of a group. -/
def rows (contents : List (List Char)) : GroupStyle → List (List Char)
  | .lines flavour => contents.map flavour.lineRow
  | .block flavour => flavour.openingRow :: (contents.map blockRow ++ [" */".toList])

/-- A group of comments on lines of its own, with a text behind it. -/
def source (style : GroupStyle) (contents : List (List Char)) (body : List Char) : String :=
  String.ofList (join ['\n'] (style.rows contents) ++ '\n' :: body)

/-- The number of line feeds in front of the text behind a group. -/
def height (count : Nat) : GroupStyle → Nat
  | .lines _ => max count 1
  | .block _ => count + 2

/-- The source line of the first line that is said. -/
def firstLine : GroupStyle → Nat
  | .lines _ => 1
  | .block _ => 2

end GroupStyle

theorem join_feed {rows : List (List Char)} (h : rows ≠ []) (rest : List Char) :
    join ['\n'] rows ++ '\n' :: rest = rows.flatMap (· ++ ['\n']) ++ rest := by
  fun_induction join ['\n'] rows with
  | case1 => exact absurd rfl h
  | case2 row => simp
  | case3 row next rows ih => simp [ih]

/-- The cursor at the start of a line, with some lines above it that have no code. -/
def behind (lines : Nat) : Cursor where
  position := ⟨lines + 1, 1⟩

theorem behind_pastComment (lines : Nat) (text : List Char) :
    ((behind lines).pastComment text).pastBlank '\n' = behind (lines + text.count '\n' + 1) := by
  have hline : ((⟨lines + 1, 1⟩ : Position).after text).line = lines + text.count '\n' + 1 := by
    rw [Position.line_after, Nat.add_right_comm]
  simp [Cursor.pastComment, Cursor.pastBlank, Position.advance, behind, hline]

/-- The token that a comment at the start of a line is. -/
def PlacedComment.token (placed : PlacedComment) : Token :=
  ⟨.comment placed.comment, ⟨placed.line, 1⟩⟩

theorem placedComments_map_token (comments : List PlacedComment) :
    placedComments (comments.map PlacedComment.token) = comments := by
  rw [placedComments, List.filterMap_map]
  exact List.filterMap_some

/-- Lines as comments of their own, from a line on. -/
def lineComments (flavour : Flavour) (line : Nat) : List (List Char) → List PlacedComment
  | [] => []
  | content :: contents =>
    ⟨⟨String.ofList (trimEnd (flavour.lineRow content)), .line, false, line⟩, line⟩ ::
      lineComments flavour (line + 1) contents

/-- What stands behind the first row of a block comment, up to the closing delimiter. -/
def blockRows : List (List Char) → List Char
  | [] => [' ']
  | content :: contents => blockRow content ++ '\n' :: blockRows contents

/-- Lines as one block comment. -/
def blockGroup (flavour : Flavour) (contents : List (List Char)) : List Char :=
  blockCommentText (flavour.blockMark ++ '\n' :: blockRows contents)

/-- The comments of a group. -/
def GroupStyle.comments (contents : List (List Char)) : GroupStyle → List PlacedComment
  | .lines flavour => lineComments flavour 1 contents
  | .block flavour =>
    [⟨⟨String.ofList (blockGroup flavour contents), .block, false, contents.length + 2⟩, 1⟩]

section Tokens

variable {contents : List (List Char)} (flavour : Flavour)

theorem lineFeed_notMem_mark {content : List Char} (h : '\n' ∉ content) :
    '\n' ∉ flavour.lineMark ++ ' ' :: content := by
  cases flavour <;> simpa [Flavour.lineMark] using h

theorem tokens_lineRow (line : Nat) {content : List Char} (h : '\n' ∉ content) (rest : List Char) :
    (behind line).tokens (flavour.lineRow content ++ '\n' :: rest) =
      ⟨.comment ⟨String.ofList (trimEnd (flavour.lineRow content)), .line, false, line + 1⟩,
        ⟨line + 1, 1⟩⟩ :: (behind (line + 1)).tokens rest := by
  have htext := lineFeed_notMem_mark flavour h
  have hrow : '\n' ∉ flavour.lineRow content := by simpa [Flavour.lineRow] using htext
  have hpast := behind_pastComment line (flavour.lineRow content)
  rw [List.count_eq_zero.2 hrow, Flavour.lineRow] at hpast
  rw [Flavour.lineRow, Cursor.tokens_lineComment _ htext (.inr rfl),
    Cursor.tokens_blank _ (by decide), hpast]
  simp [Cursor.lineComment, Cursor.comment, behind]

theorem tokens_lineRows (hcontents : ∀ content ∈ contents, GroupLine content) (line : Nat)
    (rest : List Char) :
    (behind line).tokens ((contents.map flavour.lineRow).flatMap (· ++ ['\n']) ++ rest) =
      (lineComments flavour (line + 1) contents).map PlacedComment.token ++
        (behind (line + contents.length)).tokens rest := by
  induction contents generalizing line with
  | nil => rfl
  | cons content contents ih =>
    obtain ⟨hcontent, hcontents⟩ := List.forall_mem_cons.1 hcontents
    have hlength : line + (content :: contents).length = line + 1 + contents.length := by
      rw [List.length_cons]
      omega
    rw [List.map_cons, List.flatMap_cons, List.append_assoc, List.append_assoc,
      List.singleton_append, tokens_lineRow flavour line hcontent.lineFeed, ih hcontents, hlength]
    rfl

theorem not_infix_blockRows (hcontents : ∀ content ∈ contents, GroupLine content) :
    ¬ ['*', '/'] <:+: blockRows contents := by
  induction contents with
  | nil => decide
  | cons content contents ih =>
    obtain ⟨hcontent, hcontents⟩ := List.forall_mem_cons.1 hcontents
    have hrow : ¬ ['*', '/'] <:+: content ++ '\n' :: blockRows contents :=
      not_infix_append (by simp) (by decide) hcontent.delimiter (ih hcontents)
    have hstar : ¬ ['*', '/'] <:+: [' ', '*'] := by decide
    have hall := not_infix_append (by simp) (show ' ' ∉ ['*', '/'] by decide) hstar hrow
    simpa [blockRows, blockRow] using hall

theorem count_blockRows (hcontents : ∀ content ∈ contents, GroupLine content) :
    (blockRows contents).count '\n' = contents.length := by
  induction contents with
  | nil => rfl
  | cons content contents ih =>
    obtain ⟨hcontent, hcontents⟩ := List.forall_mem_cons.1 hcontents
    have hnone : content.count '\n' = 0 := List.count_eq_zero.2 hcontent.lineFeed
    simp [blockRows, blockRow, hnone, ih hcontents]

theorem flatMap_blockRows (contents : List (List Char)) (rest : List Char) :
    (contents.map blockRow ++ [" */".toList]).flatMap (· ++ ['\n']) ++ rest =
      blockRows contents ++ '*' :: '/' :: '\n' :: rest := by
  induction contents with
  | nil => rfl
  | cons content contents ih =>
    rw [List.map_cons, List.cons_append, List.flatMap_cons, List.append_assoc, ih, blockRows]
    simp

theorem join_blockGroup (contents : List (List Char)) (rest : List Char) :
    join ['\n'] ((GroupStyle.block flavour).rows contents) ++ '\n' :: rest =
      blockGroup flavour contents ++ '\n' :: rest := by
  rw [join_feed (by simp [GroupStyle.rows]), GroupStyle.rows, List.flatMap_cons, List.append_assoc,
    flatMap_blockRows]
  simp [blockGroup, blockCommentText, Flavour.openingRow]

theorem count_blockGroup (hcontents : ∀ content ∈ contents, GroupLine content) :
    (blockGroup flavour contents).count '\n' = contents.length + 1 := by
  have hmark : flavour.blockMark.count '\n' = 0 := by cases flavour <;> rfl
  simp [blockGroup, blockCommentText, hmark, count_blockRows hcontents]

theorem tokens_blockGroup (hcontents : ∀ content ∈ contents, GroupLine content) (rest : List Char) :
    (behind 0).tokens (blockGroup flavour contents ++ '\n' :: rest) =
      ⟨.comment ⟨String.ofList (blockGroup flavour contents), .block, false, contents.length + 2⟩,
        ⟨1, 1⟩⟩ :: (behind (contents.length + 2)).tokens rest := by
  have hmark : ¬ ['*', '/'] <:+: flavour.blockMark := by cases flavour <;> decide
  have hclosed : ¬ ['*', '/'] <:+: flavour.blockMark ++ '\n' :: blockRows contents :=
    not_infix_append (by simp) (by decide) hmark (not_infix_blockRows hcontents)
  have hcount := count_blockGroup flavour hcontents
  have hline : ((behind 0).position.after (blockGroup flavour contents)).line =
      contents.length + 2 := by
    rw [Position.line_after, hcount]
    exact Nat.add_comm ..
  have hpast := behind_pastComment 0 (blockGroup flavour contents)
  rw [hcount, Nat.zero_add] at hpast
  rw [blockGroup, Cursor.tokens_blockCommentText _ hclosed, Cursor.tokens_blank _ (by decide),
    ← blockGroup, hpast, Cursor.blockComment, Cursor.comment, hline]
  rfl

/-- A group as a text is its comments as tokens. -/
theorem tokens_group (hcontents : ∀ content ∈ contents, GroupLine content) (style : GroupStyle)
    (rest : List Char) :
    ({} : Cursor).tokens (join ['\n'] (style.rows contents) ++ '\n' :: rest) =
      (style.comments contents).map PlacedComment.token ++
        (behind (style.height contents.length)).tokens rest := by
  cases style with
  | lines flavour =>
    by_cases hempty : contents = []
    · subst hempty
      exact Cursor.tokens_blank {} (by decide) rest
    · have hheight : GroupStyle.height contents.length (.lines flavour) = 0 + contents.length := by
        have hlength := List.length_pos_iff.2 hempty
        simp only [GroupStyle.height]
        omega
      rw [join_feed (by simpa [GroupStyle.rows] using hempty), hheight]
      exact tokens_lineRows flavour hcontents 0 rest
  | block flavour =>
    rw [join_blockGroup]
    exact tokens_blockGroup flavour hcontents rest

end Tokens

section Documentation

variable {contents : List (List Char)} (flavour : Flavour)

theorem lineComments_leading (line : Nat) (contents : List (List Char)) :
    ∀ placed ∈ lineComments flavour line contents, placed.comment.trailing = false := by
  induction contents generalizing line with
  | nil => simp [lineComments]
  | cons content contents ih => simpa [lineComments] using ih (line + 1)

theorem lineComments_adjacent (line : Nat) (contents : List (List Char)) :
    (lineComments flavour line contents).IsChain fun previous next =>
      next.line ≤ previous.comment.endLine + 1 := by
  induction contents generalizing line with
  | nil => exact .nil
  | cons content contents ih =>
    cases contents with
    | nil => exact .singleton _
    | cons next contents => exact .cons_cons (Nat.le_refl _) (ih (line + 1))

theorem endLine_lineComments (line : Nat) (h : contents ≠ []) :
    ∃ last ∈ (lineComments flavour line contents).getLast?,
      last.comment.endLine + 1 = line + contents.length := by
  induction contents generalizing line with
  | nil => exact absurd rfl h
  | cons content contents ih =>
    by_cases hempty : contents = []
    · subst hempty
      exact ⟨_, rfl, rfl⟩
    · obtain ⟨last, hlast, hend⟩ := ih (line + 1) hempty
      refine ⟨last, ?_, ?_⟩
      · rw [lineComments, List.getLast?_cons, Option.mem_def.1 hlast]
        rfl
      · rw [hend, List.length_cons]
        omega

/-- The comments of a group are one block. -/
theorem oneBlock_group (style : GroupStyle) (contents : List (List Char)) :
    OneBlock (style.comments contents) := by
  cases style with
  | lines flavour => exact ⟨lineComments_leading flavour 1 contents, lineComments_adjacent ..⟩
  | block flavour => exact oneBlock_singleton rfl

/-- The documentation that a group is. -/
def GroupStyle.doc (style : GroupStyle) (contents : List (List Char)) : DocBlock :=
  (style.comments contents).map PlacedComment.doc

theorem endLine_doc (style : GroupStyle) (h : contents ≠ []) :
    style.doc contents ≠ [] ∧ (style.doc contents).endLine = style.height contents.length := by
  cases style with
  | lines flavour =>
    obtain ⟨last, hlast, hend⟩ := endLine_lineComments flavour 1 h
    refine ⟨?_, (DocBlock.endLine_map_doc hlast).trans ?_⟩
    · obtain ⟨content, contents, rfl⟩ := List.exists_cons_of_ne_nil h
      simp [GroupStyle.doc, GroupStyle.comments, lineComments]
    · have hlength := List.length_pos_iff.2 h
      simp only [GroupStyle.height]
      omega
  | block flavour => exact ⟨by simp [GroupStyle.doc, GroupStyle.comments], rfl⟩

/-- Lines with their numbers, from one on. -/
def numbered (line : Nat) : List (List Char) → List ContentLine
  | [] => []
  | content :: contents => ⟨line, String.ofList content⟩ :: numbered (line + 1) contents

/-- A comment of one line says that line. -/
theorem said_lineRow {content : List Char} (h : GroupLine content) (line : Nat) :
    saidLines (Source.contentLines (String.ofList (trimEnd (flavour.lineRow content))) .line line) =
      saidLines [⟨line, String.ofList content⟩] := by
  by_cases hempty : content = []
  · subst hempty
    cases flavour <;> rfl
  · have htrimmed : Trimmed content := .of_trim_eq h.trimmed hempty
    have hend : trimEnd (flavour.lineRow content) = flavour.lineRow content := by
      have hlast := htrimmed.last_append ('/' :: '/' :: (flavour.lineMark ++ [' ']))
      refine trimEnd_of_last ?_
      simpa [Flavour.lineRow] using hlast
    have hbody : commentBody (flavour.lineRow content) = ' ' :: content := by
      cases flavour <;> rfl
    have hlines : lines (' ' :: content) = [' ' :: content] :=
      lines_of_notMem (by simpa using h.lineFeed) (by simp)
    have hcontent : contentOfLine .line (' ' :: content) = content := by
      rw [contentOfLine, trim_cons_blank (by decide), h.trimmed]
    simp [Source.contentLines, hend, hbody, hlines, hcontent]

theorem contentOfLine_blockRow {content : List Char} (h : GroupLine content) :
    contentOfLine .block (blockRow content) = content := by
  by_cases hempty : content = []
  · subst hempty
    decide
  · have htrimmed : Trimmed content := .of_trim_eq h.trimmed hempty
    have hrow : trim (blockRow content) = '*' :: ' ' :: content := by
      change trim (' ' :: '*' :: ' ' :: content) = _
      rw [trim_cons_blank (by decide)]
      exact Trimmed.trim_eq (.cons (by decide) (by simp) (htrimmed.last_append [' ']))
    rw [contentOfLine, hrow]
    change trim (' ' :: content) = content
    rw [trim_cons_blank (by decide), h.trimmed]

theorem lines_blockRows (hcontents : ∀ content ∈ contents, GroupLine content) :
    lines (blockRows contents) = contents.map blockRow ++ [[' ']] := by
  induction contents with
  | nil => rfl
  | cons content contents ih =>
    obtain ⟨hcontent, hcontents⟩ := List.forall_mem_cons.1 hcontents
    have hfeed : '\n' ∉ blockRow content := by simpa [blockRow] using hcontent.lineFeed
    have hreturn : dropReturn (blockRow content) = blockRow content := by
      refine dropReturn_of_last fun hlast => ?_
      by_cases hempty : content = []
      · simp [hempty, blockRow] at hlast
      · have htrimmed : Trimmed content := .of_trim_eq hcontent.trimmed hempty
        exact absurd (htrimmed.last_append " * ".toList _ hlast) (by decide)
    rw [blockRows, lines_append hfeed hreturn, ih hcontents]
    rfl

theorem commentBody_blockGroup (contents : List (List Char)) :
    commentBody (blockGroup flavour contents) = '\n' :: blockRows contents := by
  rw [blockGroup, blockCommentText, commentBody, dropEnd?_append]
  cases flavour <;> rfl

/-- The numbers behind the first line. -/
theorem mapIdx_cons_lines (line : Nat) (row : List Char) (rows : List (List Char)) :
    ((row :: rows).mapIdx fun index text =>
        (⟨line + index, String.ofList (contentOfLine .block text)⟩ : ContentLine)) =
      ⟨line, String.ofList (contentOfLine .block row)⟩ :: rows.mapIdx fun index text =>
        ⟨line + 1 + index, String.ofList (contentOfLine .block text)⟩ := by
  rw [List.mapIdx_cons]
  congr 2
  funext index text
  rw [Nat.add_assoc, Nat.add_comm 1]

theorem mapIdx_blockRows (hcontents : ∀ content ∈ contents, GroupLine content) (line : Nat) :
    ((contents.map blockRow ++ [[' ']]).mapIdx fun index row =>
        (⟨line + index, String.ofList (contentOfLine .block row)⟩ : ContentLine)) =
      numbered line contents ++ [⟨line + contents.length, ""⟩] := by
  induction contents generalizing line with
  | nil =>
    have hlast : contentOfLine .block [' '] = [] := by decide
    simp [numbered, hlast]
  | cons content contents ih =>
    obtain ⟨hcontent, hcontents⟩ := List.forall_mem_cons.1 hcontents
    have hlength : line + 1 + contents.length = line + (content :: contents).length := by
      rw [List.length_cons]
      omega
    rw [List.map_cons, List.cons_append, mapIdx_cons_lines, ih hcontents, hlength,
      contentOfLine_blockRow hcontent]
    rfl

theorem contentLines_blockGroup (hcontents : ∀ content ∈ contents, GroupLine content) (line : Nat) :
    Source.contentLines (String.ofList (blockGroup flavour contents)) .block line =
      ⟨line, ""⟩ :: (numbered (line + 1) contents ++ [⟨line + 1 + contents.length, ""⟩]) := by
  have hlines : lines (commentBody (blockGroup flavour contents)) =
      [] :: (contents.map blockRow ++ [[' ']]) := by
    rw [commentBody_blockGroup, ← List.nil_append ('\n' :: _), lines_append (by simp) rfl,
      lines_blockRows hcontents]
  rw [Source.contentLines, String.toList_ofList, hlines, mapIdx_cons_lines,
    mapIdx_blockRows hcontents]
  rfl

theorem said_lineComments (hcontents : ∀ content ∈ contents, GroupLine content) (line : Nat) :
    saidLines (DocBlock.contentLines ((lineComments flavour line contents).map PlacedComment.doc)) =
      saidLines (numbered line contents) := by
  induction contents generalizing line with
  | nil => rfl
  | cons content contents ih =>
    obtain ⟨hcontent, hcontents⟩ := List.forall_mem_cons.1 hcontents
    have hrow := said_lineRow flavour hcontent line
    have hrest := ih hcontents (line + 1)
    have hsaid := saidLines_append [⟨line, String.ofList content⟩] (numbered (line + 1) contents)
    rw [← hrow, ← hrest, ← saidLines_append] at hsaid
    exact hsaid.symm

/-- What is said in a group are its lines, from its first line on. -/
theorem said_group (hcontents : ∀ content ∈ contents, GroupLine content) (style : GroupStyle) :
    saidLines (style.doc contents).contentLines = saidLines (numbered style.firstLine contents) := by
  cases style with
  | lines flavour => exact said_lineComments flavour hcontents 1
  | block flavour =>
    have hempty (line : Nat) : saidLines [⟨line, ""⟩] = [] := rfl
    have hdoc : ((GroupStyle.block flavour).doc contents).contentLines =
        Source.contentLines (String.ofList (blockGroup flavour contents)) .block 1 := by
      simp [GroupStyle.doc, GroupStyle.comments, DocBlock.contentLines, PlacedComment.doc]
    rw [hdoc, contentLines_blockGroup flavour hcontents, ← List.singleton_append, saidLines_append,
      saidLines_append, hempty, hempty, List.append_nil, List.nil_append]
    rfl

end Documentation

end EnumConverter.Source
