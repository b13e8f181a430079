import EnumConverter.Proofs.Document.Block
import EnumConverter.Proofs.Lexer.Partition
import EnumConverter.Proofs.Scan.Visit
import EnumConverter.Proofs.Text.OnLine

namespace EnumConverter

open Source Scan Text

namespace Source

theorem exists_before_dropFlavour (flavours cs : List Char) :
    ∃ before, cs = before ++ dropFlavour flavours cs ∧ ∀ c ∈ before, c ∈ flavours := by
  fun_cases dropFlavour flavours cs with
  | case1 => exact ⟨[], rfl, by simp⟩
  | case2 c cs hc => exact ⟨[c], rfl, by simpa using hc⟩
  | case3 c cs => exact ⟨[], rfl, by simp⟩

/-- No line feed is dropped in front of the body of a comment. -/
theorem exists_before_commentBody (cs : List Char) :
    ∃ before after, cs = before ++ commentBody cs ++ after ∧ '\n' ∉ before := by
  have hopening (opening flavours : List Char) (hopens : '\n' ∉ opening)
      (hflavours : '\n' ∉ flavours) (rest after : List Char) :
      ∃ before tail, opening ++ (rest ++ after) = before ++ dropFlavour flavours rest ++ tail ∧
        '\n' ∉ before := by
    obtain ⟨before, hrest, hbefore⟩ := exists_before_dropFlavour flavours rest
    refine ⟨opening ++ before, after, ?_, ?_⟩
    · rw [List.append_assoc opening, ← hrest, List.append_assoc]
    · rw [List.mem_append, not_or]
      exact ⟨hopens, fun hfeed => hflavours (hbefore _ hfeed)⟩
  fun_cases commentBody cs with
  | case1 rest =>
    have h := hopening ['/', '/'] ['/', '!'] (by decide) (by decide) rest []
    rwa [List.append_nil] at h
  | case2 rest =>
    have h := hopening ['/', '*'] ['*', '!'] (by decide) (by decide)
      ((dropEnd? ['*', '/'] rest).getD rest)
    cases hdrop : dropEnd? ['*', '/'] rest with
    | none =>
      rw [hdrop] at h
      simpa using h []
    | some inner =>
      rw [hdrop] at h
      rw [← append_of_dropEnd? hdrop]
      exact h ['*', '/']
  | case3 => exact ⟨[], [], by simp, by simp⟩

theorem contentOfLine_isInfix (style : CommentStyle) (line : List Char) :
    contentOfLine style line <:+: line := by
  cases style with
  | line => exact trim_isInfix line
  | block =>
    have hstars : (trim line).dropWhile (· = '*') <:+ trim line := List.dropWhile_suffix _
    exact (trim_isInfix _).trans (hstars.isInfix.trans (trim_isInfix line))

/-- The lines of content are parts of the lines of the comment. -/
theorem onLine_contentLines {text : String} {style : CommentStyle} {firstLine : Nat}
    {content : ContentLine} (h : content ∈ contentLines text style firstLine) :
    ∃ index, content.line = firstLine + index ∧
      OnLine text.toList (1 + index) content.text.toList := by
  obtain ⟨before, after, htext, hfeed⟩ := exists_before_commentBody text.toList
  obtain ⟨index, hindex, rfl⟩ := List.mem_mapIdx.1 h
  have hbody := onLine_lines (List.getElem?_eq_getElem hindex)
  have hwhole := (hbody.of_isInfix (contentOfLine_isInfix style _)).within before after
  rw [← htext, List.count_eq_zero.2 hfeed, Nat.zero_add] at hwhole
  exact ⟨index, rfl, by simpa using hwhole⟩

theorem Span.take_append_slice {span : Span} (h : span.start ≤ span.stop) (source : List Char) :
    source.take span.start ++ span.slice source = source.take span.stop := by
  have htake : source.take span.start = (source.take span.stop).take span.start := by
    rw [List.take_take, Nat.min_eq_left h]
  rw [htake, Span.slice, List.take_append_drop]

namespace Comment.StandsIn

variable {comment : Comment} {line : Nat} {source : List Char} {span : Span}

theorem text_isPrefix (h : comment.StandsIn line source span) :
    comment.text.toList <+: span.slice source := by
  unfold Comment.StandsIn at h
  split at h
  · rw [h.2.1, String.toList_ofList]
  · rw [h.2.1, String.toList_ofList]
    exact trimEnd_isPrefix _

theorem endLine_eq (h : comment.StandsIn line source span) (hline : line = lineAt source span.start)
    (hspan : span.start ≤ span.stop) : comment.endLine = line + (span.slice source).count '\n' := by
  unfold Comment.StandsIn at h
  split at h
  · rw [h.2.2, hline, lineAt, lineAt, ← Span.take_append_slice hspan, List.count_append, Nat.add_assoc]
  · rw [h.2.2.1, List.count_eq_zero.2 h.2.2.2.1, Nat.add_zero]

/-- A part of a line of a comment is a part of a line of the source, between the lines on which the
comment starts and ends. -/
theorem onLine (h : comment.StandsIn line source span) (hline : line = lineAt source span.start)
    (hspan : span.start ≤ span.stop) {index : Nat} {part : List Char}
    (hpart : OnLine comment.text.toList (1 + index) part) :
    line + index ≤ comment.endLine ∧ OnLine source (line + index) part := by
  obtain ⟨tail, htail⟩ := h.text_isPrefix
  have hend := h.endLine_eq hline hspan
  have hcount : (span.slice source).count '\n' = comment.text.toList.count '\n' + tail.count '\n' := by
    rw [← htail, List.count_append]
  refine ⟨?_, ?_⟩
  · have hbounds := hpart.bounds
    omega
  · have hwhole := hpart.within (source.take span.start) (tail ++ source.drop span.stop)
    have hsource : source.take span.start ++ comment.text.toList ++ (tail ++ source.drop span.stop) =
        source := by
      rw [List.append_assoc, ← List.append_assoc comment.text.toList, htail, ← List.append_assoc,
        Span.take_append_slice hspan, List.take_append_drop]
    have hsum : (source.take span.start).count '\n' + (1 + index) = line + index := by
      rw [hline, lineAt]
      omega
    rwa [hsource, hsum] at hwhole

end Comment.StandsIn

/-- A comment of a documentation block is a comment of the source, and each of its lines of content stands
in the source where the block says so, between the first line of the comment and its last. -/
structure DocComment.QuotedFrom (source : String) (comment : DocComment) : Prop where
  written : ∃ token ∈ tokenize source, ∃ placed, token.placedComment? = some placed ∧
    placed.doc = comment
  onLine : ∀ content ∈ Source.contentLines comment.text comment.style comment.line,
    comment.line ≤ content.line ∧ content.line ≤ comment.endLine ∧
      OnLine source.toList content.line content.text.toList

theorem quotedFrom_of_token {source : String} {token : Token} (h : token ∈ tokenize source)
    {placed : PlacedComment} (hplaced : token.placedComment? = some placed) :
    placed.doc.QuotedFrom source := by
  refine ⟨⟨token, h, placed, hplaced, rfl⟩, ?_⟩
  obtain ⟨span, hspan, hposition, hkind⟩ := exists_standsIn h
  obtain ⟨comment, hcomment, rfl⟩ := Option.map_eq_some_iff.1 hplaced
  have hline : token.position.line = lineAt source.toList span.start := by rw [hposition]; rfl
  have hstands : comment.StandsIn token.position.line source.toList span := by
    unfold Token.comment? at hcomment
    split at hcomment
    · rename_i other hother
      obtain rfl := Option.some.inj hcomment
      rwa [hother] at hkind
    · cases hcomment
  intro content hcontent
  obtain ⟨index, hindex, hpart⟩ := onLine_contentLines hcontent
  obtain ⟨hend, hquoted⟩ := hstands.onLine hline hspan hpart
  change content.line = token.position.line + index at hindex
  rw [hindex]
  exact ⟨Nat.le_add_right _ _, hend, hquoted⟩

end Source

theorem Source.DocBlock.mem_observe {block : DocBlock} {comment : Comment} {line : Nat}
    {doc : DocComment} (h : doc ∈ block.observe comment line) :
    doc ∈ block ∨ doc = PlacedComment.doc ⟨comment, line⟩ := by
  unfold observe at h
  split at h
  · simp at h
  · split at h
    · exact .inr (List.mem_singleton.1 h)
    · obtain hmem | hlast := List.mem_append.1 h
      · exact .inl hmem
      · exact .inr (List.mem_singleton.1 hlast)

/-- What a scan remembers as documentation are comments among the tokens. -/
theorem Scan.Visits.doc_written {tokens rest : List Token} {state : ScanState}
    (h : Visits tokens state rest) : ∀ comment ∈ state.doc,
      ∃ token ∈ tokens, ∃ placed, token.placedComment? = some placed ∧ placed.doc = comment := by
  induction h with
  | start => simp
  | @step state token rest hvisit ih =>
    cases hcomment : token.isComment with
    | false => simp [doc_step state token rest hcomment]
    | true =>
      obtain ⟨comment, hkind⟩ := token.exists_comment hcomment
      intro doc hdoc
      rw [step_comment hkind] at hdoc
      obtain hearlier | rfl := DocBlock.mem_observe hdoc
      · exact ih doc hearlier
      · exact ⟨token, hvisit.suffix.mem (List.mem_cons_self ..), _,
          by simp [Token.placedComment?, Token.comment?, hkind], rfl⟩

theorem Scan.Visits.quotedFrom {source : String} {rest : List Token} {state : ScanState}
    (h : Visits (tokenize source) state rest) : ∀ comment ∈ state.doc, comment.QuotedFrom source := by
  intro comment hcomment
  obtain ⟨token, htoken, placed, hplaced, rfl⟩ := h.doc_written comment hcomment
  exact quotedFrom_of_token htoken hplaced

theorem Scan.quotedFrom_of_mem_doc {source : String} {raw : RawEnum}
    (hraw : raw ∈ (scan source).enums) : ∀ comment ∈ raw.doc, comment.QuotedFrom source := by
  obtain ⟨state, token, rest, hvisit, hfound⟩ := exists_visits .start _ hraw
  obtain ⟨hdoc, -⟩ := step_found hfound
  rw [hdoc]
  exact hvisit.quotedFrom

end EnumConverter
