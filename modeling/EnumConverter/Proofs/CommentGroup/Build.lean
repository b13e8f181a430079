import EnumConverter.Proofs.CommentGroup.Scan
import EnumConverter.Proofs.CommentGroup.Style
import EnumConverter.Proofs.Placed.Cursor

namespace EnumConverter

open Source Scan Annotation Text

namespace Source.GroupStyle

/-- The line that a line gets when a group of `count` lines is written in the style `other` instead. -/
def renumber (style other : GroupStyle) (count line : Nat) : Nat :=
  if line ≤ style.height count then line + (other.firstLine - style.firstLine)
  else line + (other.height count - style.height count)

variable {style other : GroupStyle} {count : Nat}

theorem firstLine_le (h : style.height count ≤ other.height count) :
    style.firstLine ≤ other.firstLine ∧
      other.firstLine - style.firstLine ≤ other.height count - style.height count := by
  cases style <;> cases other <;> simp only [height, firstLine] at h ⊢ <;> omega

theorem strictMono_renumber (h : style.height count ≤ other.height count) :
    StrictMono (style.renumber other count) := by
  obtain ⟨-, hshift⟩ := firstLine_le h
  intro line next hline
  unfold renumber
  split <;> split <;> omega

theorem movesBelow_renumber : MovesBelow (style.renumber other count) (style.height count)
    (other.height count - style.height count) := by
  intro line hline
  rw [renumber, if_neg (Nat.not_le.2 hline)]

theorem firstLine_add_le {index : Nat} (hindex : index < count) :
    style.firstLine + index ≤ style.height count := by
  cases style <;> simp only [height, firstLine] <;> omega

end Source.GroupStyle

theorem numbered_relined {renumber : Nat → Nat} {shift : Nat} {contents : List (List Char)} {line : Nat}
    (h : ∀ index < contents.length, renumber (line + index) = line + index + shift) :
    (numbered line contents).map (ContentLine.relined renumber) = numbered (line + shift) contents := by
  induction contents generalizing line with
  | nil => rfl
  | cons content contents ih =>
    have hline : renumber line = line + shift := h 0 (by simp)
    have hrest : ∀ index < contents.length,
        renumber (line + 1 + index) = line + 1 + index + shift := by
      intro index hindex
      have hnext := h (index + 1) (by simpa using hindex)
      rwa [← Nat.add_assoc, Nat.add_right_comm line] at hnext
    have hnext : line + shift + 1 = line + 1 + shift := Nat.add_right_comm ..
    rw [numbered, numbered, List.map_cons, ih hrest, ContentLine.relined, hline, hnext]

section Group

variable {contents : List (List Char)} {style other : GroupStyle}

theorem docFollows_group (hcontents : ∀ content ∈ contents, GroupLine content)
    (h : style.height contents.length ≤ other.height contents.length) :
    DocFollows (style.renumber other contents.length)
      (other.height contents.length - style.height contents.length)
      (style.doc contents) (other.doc contents) := by
  obtain ⟨hfirst, -⟩ := GroupStyle.firstLine_le h
  refine ⟨?_, fun hsaid => ?_⟩
  · have hlines : (numbered style.firstLine contents).map
        (ContentLine.relined (style.renumber other contents.length)) =
        numbered other.firstLine contents := by
      have hindex : ∀ index < contents.length,
          style.renumber other contents.length (style.firstLine + index) =
            style.firstLine + index + (other.firstLine - style.firstLine) :=
        fun index hindex => if_pos (GroupStyle.firstLine_add_le hindex)
      rw [numbered_relined hindex, Nat.add_sub_cancel' hfirst]
    rw [said_group hcontents, said_group hcontents, ← hlines, saidLines_relined]
  · have hne : contents ≠ [] := by
      rintro rfl
      exact hsaid (said_group hcontents style)
    obtain ⟨hdoc, hend⟩ := endLine_doc style hne
    obtain ⟨hother, hotherEnd⟩ := endLine_doc other hne
    exact ⟨hdoc, hother, by omega⟩

/-- The tokens of a text behind a group. -/
def bodyTokens (style : GroupStyle) (contents : List (List Char)) (body : List Char) : List Token :=
  (behind (style.height contents.length)).tokens body

variable (body : List Char)

theorem tokenize_source (hcontents : ∀ content ∈ contents, GroupLine content) (style : GroupStyle) :
    tokenize (style.source contents body) =
      (style.comments contents).map PlacedComment.token ++ bodyTokens style contents body := by
  rw [tokenize, GroupStyle.source, String.toList_ofList, tokens_group hcontents]
  rfl

/-- The group leaves its documentation to the text behind it. -/
theorem scan_source (hcontents : ∀ content ∈ contents, GroupLine content) (style : GroupStyle) :
    ∃ final, (∀ last ∈ (bodyTokens style contents body).getLast?, final = last.position) ∧
      scan (style.source contents body) =
        scanFrom final ⟨[], style.doc contents⟩ (bodyTokens style contents body) := by
  have htokens := tokenize_source body hcontents style
  have hcomments : ∀ token ∈ (style.comments contents).map PlacedComment.token,
      token.isComment = true := by
    intro token htoken
    obtain ⟨placed, -, rfl⟩ := List.mem_map.1 htoken
    rfl
  have hscan (final : Position) : scanFrom final {} (tokenize (style.source contents body)) =
      scanFrom final ⟨[], style.doc contents⟩ (bodyTokens style contents body) := by
    have hdoc := DocBlock.observeAll_of_oneBlock (oneBlock_group style contents)
    have hcollected := scanFrom_observeAll final [] [] hcomments (bodyTokens style contents body)
    rwa [placedComments_map_token, hdoc, ← htokens] at hcollected
  refine ⟨_, ?_, hscan _⟩
  intro last hlast
  rw [htokens, List.getLast?_append, hlast]
  rfl

theorem behind_down (lines count : Nat) : (behind lines).down count = behind (lines + count) := by
  simp [Cursor.down, behind, Placement.position, Placement.down, Nat.add_right_comm]

theorem bodyTokens_down (h : style.height contents.length ≤ other.height contents.length) :
    bodyTokens other contents body =
      (Placement.down (other.height contents.length - style.height contents.length)).tokens
        (bodyTokens style contents body) := by
  have hline : 1 ≤ (behind (style.height contents.length)).position.line := Nat.le_add_left ..
  rw [bodyTokens, bodyTokens, ← Cursor.tokens_down _ hline, behind_down, Nat.add_sub_cancel' h]

theorem line_bodyTokens (style : GroupStyle) (contents : List (List Char)) :
    ∀ token ∈ bodyTokens style contents body, style.height contents.length < token.position.line := by
  intro token htoken
  obtain hsame | hbefore := (Cursor.pairwise_tokens _ body).2 token htoken
  · rw [hsame]
    exact Nat.lt_succ_self _
  · obtain hline | ⟨hline, -⟩ := hbefore
    · exact (Nat.lt_succ_self _).trans hline
    · rw [← hline]
      exact Nat.lt_succ_self _

/-- What is found behind a group is found behind a higher group as well. -/
theorem scan_relined (hcontents : ∀ content ∈ contents, GroupLine content)
    (h : style.height contents.length ≤ other.height contents.length) :
    (scan (style.source contents body)).Relined (style.renumber other contents.length)
      (scan (other.source contents body)) := by
  obtain ⟨final, hfinal, hscan⟩ := scan_source body hcontents style
  obtain ⟨otherFinal, hotherFinal, hotherScan⟩ := scan_source body hcontents other
  rw [bodyTokens_down body h] at hotherFinal hotherScan
  rw [hscan, hotherScan]
  cases hlast : (bodyTokens style contents body).getLast? with
  | none =>
    rw [List.getLast?_eq_none_iff.1 hlast, Placement.tokens_nil, scanFrom, scanFrom]
    exact ⟨.nil, rfl⟩
  | some last =>
    have hbelow := line_bodyTokens body style contents
    have hmoved := hotherFinal _ (by rw [Placement.tokens, List.getLast?_map, hlast]; rfl)
    rw [hfinal last hlast, hmoved]
    exact scanFrom_relined GroupStyle.movesBelow_renumber
      (hbelow last (List.mem_of_getLast? hlast)) ⟨[], style.doc contents⟩
      (docFollows_group hcontents h) hbelow

theorem build_relined {renumber : Nat → Nat} (hrenumber : StrictMono renumber) {source moved : String}
    (h : (scan source).Relined renumber (scan moved)) (settings : BuildSettings) :
    (build settings moved).declarations =
        (build settings source).declarations.map (Declaration.relined renumber) ∧
      (build settings moved).diagnostics.map (·.kind) =
        (build settings source).diagnostics.map (·.kind) := by
  have hbuilt := buildEnums_relined settings [] h.enums
  constructor
  · exact congrArg Built.declarations hbuilt
  · refine kinds_sortDiagnostics hrenumber ?_
    rw [List.map_append, h.diagnostics, hbuilt, ← List.map_append, ← List.map_append]

/-- Declarations stand behind the group. -/
theorem line_declarations (hcontents : ∀ content ∈ contents, GroupLine content) (style : GroupStyle)
    (settings : BuildSettings) :
    ∀ declaration ∈ (build settings (style.source contents body)).declarations,
      ∀ line ∈ declaration.line :: declaration.enumerators.map (·.line),
        style.height contents.length < line := by
  intro declaration hdeclaration
  obtain ⟨raw, hraw, hdeclares⟩ := exists_declares settings _ declaration hdeclaration
  obtain ⟨hfound, -⟩ := mem_declaredEnums settings hraw
  have hlines := hdeclares.pairwise_lines hfound
  have hfirst : style.height contents.length < declaration.line := by
    obtain ⟨final, -, hscan⟩ := scan_source body hcontents style
    have hword : ("enum", raw.position) ∈ (scan (style.source contents body)).words :=
      List.mem_flatMap.2 ⟨raw, hfound, by simp [RawEnum.words]⟩
    rw [hscan] at hword
    obtain ⟨token, htoken, -, hposition⟩ := mem_wordsOf ((words_scanFrom _ _ _).subset hword)
    have hline := line_bodyTokens body style contents token htoken
    rwa [hposition, ← hdeclares.line] at hline
  intro line hline
  obtain rfl | hline := List.mem_cons.1 hline
  · exact hfirst
  · exact hfirst.trans_le ((List.pairwise_cons.1 hlines).1 line hline)

theorem Declaration.relined_relined {first second third : Nat → Nat} {declaration : Declaration}
    (h : ∀ line ∈ declaration.line :: declaration.enumerators.map (·.line),
      second (first line) = third line) :
    (declaration.relined first).relined second = declaration.relined third := by
  have henumerators : (declaration.enumerators.map (Enumerator.relined first)).map
      (Enumerator.relined second) = declaration.enumerators.map (Enumerator.relined third) := by
    rw [List.map_map]
    refine List.map_congr_left fun enumerator henumerator => ?_
    have hline := h enumerator.line (List.mem_cons_of_mem _ (List.mem_map_of_mem henumerator))
    exact congrArg (fun line => { enumerator with line }) hline
  have hline := h declaration.line (List.mem_cons_self ..)
  simp only [Declaration.relined, henumerators, hline]

/-- Declarations behind a group are, line for line, as far down as the group is high. -/
theorem build_higher (hcontents : ∀ content ∈ contents, GroupLine content)
    (h : style.height contents.length ≤ other.height contents.length) (settings : BuildSettings) :
    (build settings (style.source contents body)).declarations.map
        (Declaration.relined (· + other.height contents.length)) =
      (build settings (other.source contents body)).declarations.map
        (Declaration.relined (· + style.height contents.length)) ∧
    (build settings (style.source contents body)).diagnostics.map (·.kind) =
      (build settings (other.source contents body)).diagnostics.map (·.kind) := by
  obtain ⟨hdeclarations, hkinds⟩ :=
    build_relined (GroupStyle.strictMono_renumber h) (scan_relined body hcontents h) settings
  refine ⟨?_, hkinds.symm⟩
  rw [hdeclarations, List.map_map]
  refine List.map_congr_left fun declaration hdeclaration => ?_
  refine (Declaration.relined_relined fun line hline => ?_).symm
  have hbelow := line_declarations body hcontents style settings declaration hdeclaration line hline
  rw [GroupStyle.renumber, if_neg (Nat.not_le.2 hbelow)]
  omega

end Group

/-- The same lines in front of the same text give the same declarations and the same kinds of diagnostics
in the same order, whatever the style in which they are written. Only the lines of the declarations differ,
by as much as one group is higher than the other. -/
theorem build_style_irrelevant (settings : BuildSettings) {contents : List (List Char)}
    (hcontents : ∀ content ∈ contents, GroupLine content) (style other : GroupStyle)
    (body : List Char) :
    (build settings (style.source contents body)).declarations.map
        (Declaration.relined (· + other.height contents.length)) =
      (build settings (other.source contents body)).declarations.map
        (Declaration.relined (· + style.height contents.length)) ∧
    (build settings (style.source contents body)).diagnostics.map (·.kind) =
      (build settings (other.source contents body)).diagnostics.map (·.kind) := by
  obtain h | h := Nat.le_total (style.height contents.length) (other.height contents.length)
  · exact build_higher body hcontents h settings
  · obtain ⟨hdeclarations, hkinds⟩ := build_higher body hcontents h settings
    exact ⟨hdeclarations.symm, hkinds.symm⟩

/-- An annotation with a blank line and with a request that is not understood. -/
def annotationLines : List (List Char) :=
  ["@cpp_codegen".toList, [], "both".toList, "string_serialization".toList]

/-- An enum right behind it. -/
def annotatedEnum : List Char :=
  "enum e \x7b\n  a\n\x7d;".toList

theorem build_style_irrelevant_annotationLines :
    (∀ content ∈ annotationLines, GroupLine content) ∧
    (build {} ((GroupStyle.lines .plain).source annotationLines annotatedEnum)).declarations.map
        (·.line) = [5] ∧
    (build {} ((GroupStyle.lines .plain).source annotationLines annotatedEnum)).declarations.map
        (Declaration.relined (· + 6)) =
      (build {} ((GroupStyle.block .doubled).source annotationLines annotatedEnum)).declarations.map
        (Declaration.relined (· + 4)) ∧
    (build {} ((GroupStyle.lines .plain).source annotationLines annotatedEnum)).diagnostics.map
        (·.kind) =
      (build {} ((GroupStyle.block .doubled).source annotationLines annotatedEnum)).diagnostics.map
        (·.kind) := by
  have hlines : ∀ content ∈ annotationLines,
      trim content = content ∧ '\n' ∉ content ∧ ¬ ['*', '/'] <:+: content := by
    decide +kernel
  have hcontents : ∀ content ∈ annotationLines, GroupLine content := by
    intro content hcontent
    obtain ⟨htrimmed, hfeed, hdelimiter⟩ := hlines content hcontent
    exact ⟨htrimmed, hfeed, hdelimiter⟩
  refine ⟨hcontents, by decide +kernel, ?_⟩
  exact build_style_irrelevant {} hcontents (.lines .plain) (.block .doubled) annotatedEnum

end EnumConverter
