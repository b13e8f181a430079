import EnumConverter.Proofs.Printing.Tree
import EnumConverter.Proofs.Text.Line

namespace EnumConverter.Printing

open Source Scan Annotation Text

/-- The line with the marker. -/
def markerLine : List Char :=
  " * @cpp_codegen".toList

/-- A line that requests a conversion. -/
def requestLine (kind : Conversion) : List Char :=
  (" * " ++ kind.keyword).toList

/-- The lines behind the marker, up to the closing delimiter. -/
def requestLines : List Conversion → List Char
  | [] => [' ']
  | kind :: requests => requestLine kind ++ '\n' :: requestLines requests

/-- What stands between the delimiters of an annotation. -/
def annotationBody (requests : List Conversion) : List Char :=
  '*' :: '\n' :: (markerLine ++ '\n' :: requestLines requests)

/-- The comment of an annotation. -/
def annotationText (requests : List Conversion) : List Char :=
  '/' :: '*' :: (annotationBody requests ++ ['*', '/'])

theorem toList_unlines_requests (requests : List Conversion) :
    (unlines (requests.map (fun kind => " * " ++ kind.keyword) ++ [" */"])).toList =
      requestLines requests ++ ['*', '/', '\n'] := by
  induction requests with
  | nil => rfl
  | cons kind requests ih =>
    rw [List.map_cons, List.cons_append, unlines, String.toList_append, String.toList_append, ih]
    simp [requestLines, requestLine]

theorem toList_unlines_marker (rest : List String) :
    (unlines ("/**" :: " * @cpp_codegen" :: rest)).toList =
      '/' :: '*' :: '*' :: '\n' :: (markerLine ++ '\n' :: (unlines rest).toList) := by
  have hopen : "/**".toList = ['/', '*', '*'] := rfl
  have hmarker : " * @cpp_codegen".toList = markerLine := rfl
  have hfeed : "\n".toList = ['\n'] := rfl
  simp only [unlines, String.toList_append, hopen, hmarker, hfeed, List.cons_append,
    List.nil_append, List.append_assoc]

theorem toList_unlines_annotationBlock {node : EnumNode} (h : node.requests ≠ []) :
    (unlines node.annotation).toList = annotationText node.requests ++ ['\n'] := by
  have hlines : node.annotation = "/**" :: " * @cpp_codegen" ::
      (node.requests.map (fun kind => " * " ++ kind.keyword) ++ [" */"]) := if_neg h
  rw [hlines, toList_unlines_marker, toList_unlines_requests]
  simp [annotationText, annotationBody]

theorem blockCommentRest_markerLine (rest : List Char) :
    blockCommentRest ('*' :: '\n' :: (markerLine ++ '\n' :: rest)) =
      (blockCommentRest rest).extend ('*' :: '\n' :: (markerLine ++ ['\n'])) := rfl

theorem blockCommentRest_requestLine (kind : Conversion) (rest : List Char) :
    blockCommentRest (requestLine kind ++ '\n' :: rest) =
      (blockCommentRest rest).extend (requestLine kind ++ ['\n']) := by
  cases kind <;> rfl

theorem blockCommentRest_requestLines (requests : List Conversion) (rest : List Char) :
    blockCommentRest (requestLines requests ++ '*' :: '/' :: rest) =
      ⟨requestLines requests ++ ['*', '/'], rest⟩ := by
  induction requests with
  | nil => rfl
  | cons kind requests ih =>
    rw [requestLines, List.append_assoc, List.cons_append, blockCommentRest_requestLine, ih]
    simp [Cut.extend]

/-- The comment of an annotation ends with its own delimiter. -/
theorem blockCommentRest_annotationBlock (requests : List Conversion) (rest : List Char) :
    blockCommentRest (annotationBody requests ++ ['*', '/'] ++ rest) =
      ⟨annotationBody requests ++ ['*', '/'], rest⟩ := by
  have htext : annotationBody requests ++ ['*', '/'] ++ rest =
      '*' :: '\n' :: (markerLine ++ '\n' :: (requestLines requests ++ '*' :: '/' :: rest)) := by
    simp [annotationBody]
  rw [htext, blockCommentRest_markerLine, blockCommentRest_requestLines]
  simp [Cut.extend, annotationBody]

/-- The comment of an annotation is one token. -/
theorem tokens_annotationBlock (here : Cursor) (requests : List Conversion) (rest : List Char) :
    here.tokens (annotationText requests ++ rest) = here.blockComment (annotationText requests) ::
      (here.pastComment (annotationText requests)).tokens rest :=
  here.tokens_blockComment (blockCommentRest_annotationBlock requests rest)

theorem count_lineFeed_requestLines (requests : List Conversion) :
    (requestLines requests).count '\n' = requests.length := by
  induction requests with
  | nil => rfl
  | cons kind requests ih =>
    have hline : (requestLine kind).count '\n' = 0 := by cases kind <;> decide
    rw [requestLines, List.count_append, hline, List.count_cons, ih]
    simp

theorem count_lineFeed_annotationBlock (requests : List Conversion) :
    (annotationText requests).count '\n' = requests.length + 2 := by
  have hmarker : markerLine.count '\n' = 0 := by decide
  simp [annotationText, annotationBody, List.count_append, hmarker,
    count_lineFeed_requestLines]

theorem commentBody_annotationBlock (requests : List Conversion) :
    commentBody (annotationText requests) = '\n' :: (markerLine ++ '\n' :: requestLines requests) := by
  rw [annotationText, commentBody, dropEnd?_append]
  rfl

theorem lines_requestLines (requests : List Conversion) :
    lines (requestLines requests) = requests.map requestLine ++ [[' ']] := by
  induction requests with
  | nil => rfl
  | cons kind requests ih =>
    have hfeed : '\n' ∉ requestLine kind := by cases kind <;> decide
    have hreturn : dropReturn (requestLine kind) = requestLine kind := by cases kind <;> rfl
    rw [requestLines, lines_append hfeed hreturn, ih]
    rfl

theorem lines_annotationBlock (requests : List Conversion) :
    lines (commentBody (annotationText requests)) =
      [] :: markerLine :: (requests.map requestLine ++ [[' ']]) := by
  rw [commentBody_annotationBlock, ← List.nil_append ('\n' :: _), lines_append (by decide) rfl,
    lines_append (by decide) rfl, lines_requestLines]

/-- What a line of the annotation says, without its decoration. -/
theorem contentOfLine_requestLine (kind : Conversion) :
    contentOfLine .block (requestLine kind) = kind.keyword.toList := by
  cases kind <;> decide

/-- The marker unless another one is chosen. -/
def marker : Marker :=
  .ofText defaultMarker

theorem opens_keyword (kind : Conversion) (line : Nat) :
    marker.opens ⟨line, kind.keyword⟩ = false := by
  have hword : leadingWord? kind.keyword ≠ some marker.word := by cases kind <;> decide
  simpa [Marker.opens] using hword

theorem add_keyword (directives : Directives) (kind : Conversion) (line : Nat) :
    directives.add ⟨line, kind.keyword⟩ =
      { directives with conversions := directives.conversions.insert kind } := by
  have hword : leadingWord? kind.keyword = some kind.keyword := by cases kind <;> decide
  simp [Directives.add, hword]

/-- Below the marker, only the texts of the lines count as long as all of them are understood. -/
theorem foldl_add_requests (requests : List Conversion) (directives : Directives)
    {contents : List ContentLine}
    (h : contents.map (·.text) = requests.map Conversion.keyword ++ [""]) :
    (contents.filter (!marker.opens ·)).foldl .add directives =
      { directives with conversions := requests.foldl .insert directives.conversions } := by
  induction requests generalizing contents directives with
  | nil =>
    obtain ⟨content, rfl, htext⟩ : ∃ content, contents = [content] ∧ content.text = "" := by
      simpa [List.map_eq_singleton_iff] using h
    obtain ⟨line, text⟩ := content
    subst htext
    rfl
  | cons kind requests ih =>
    obtain ⟨content, rest, rfl, htext, hrest⟩ := List.map_eq_cons_iff.1 h
    obtain ⟨line, text⟩ := content
    subst htext
    rw [List.filter_cons, if_pos (by simp [opens_keyword]), List.foldl_cons, add_keyword, ih _ hrest]
    rfl

theorem map_text_mapIdx (lines : List (List Char)) (number : Nat → Nat)
    (content : List Char → String) :
    (lines.mapIdx fun index text => ContentLine.mk (number index) (content text)).map (·.text) =
      lines.map content := by
  apply List.ext_getElem?
  intro index
  simp [Function.comp_def]

/-- The documentation block of an annotation whose comment starts on `line`. -/
def annotationDoc (requests : List Conversion) (line : Nat) : DocBlock :=
  [⟨String.ofList (annotationText requests), .block, line, line + requests.length + 2⟩]

/-- The directives of an annotation are its requests. -/
theorem directives?_annotationDoc (requests : List Conversion) (line : Nat) :
    marker.directives? (annotationDoc requests line).contentLines =
      some { markerLine := line + 1, conversions := .ofList requests } := by
  have hcontents : (annotationDoc requests line).contentLines =
      ⟨line, ""⟩ :: ⟨line + 1, "@cpp_codegen"⟩ ::
        (requests.map requestLine ++ [[' ']]).mapIdx (fun index text =>
          ⟨line + (index + 1 + 1), String.ofList (contentOfLine .block text)⟩) := by
    simp only [annotationDoc, DocBlock.contentLines, List.flatMap_cons, List.flatMap_nil,
      List.append_nil, contentLines, String.toList_ofList, lines_annotationBlock, List.mapIdx_cons]
    rfl
  have htexts : ((requests.map requestLine ++ [[' ']]).mapIdx (fun index text =>
      ContentLine.mk (line + (index + 1 + 1)) (String.ofList (contentOfLine .block text)))).map
        (·.text) = requests.map Conversion.keyword ++ [""] := by
    rw [map_text_mapIdx]
    simp [contentOfLine_requestLine, show contentOfLine .block [' '] = [] by decide]
  have hblank : marker.opens ⟨line, ""⟩ = false := by
    have hword : leadingWord? "" ≠ some marker.word := by decide
    simpa [Marker.opens] using hword
  have hmarker : marker.opens ⟨line + 1, "@cpp_codegen"⟩ = true := by
    have hword : leadingWord? "@cpp_codegen" = some marker.word := by decide
    simpa [Marker.opens] using hword
  rw [hcontents, Marker.directives?, if_neg (by simp [hblank]), Marker.directives?, if_pos hmarker,
    foldl_add_requests requests _ htexts]
  rfl

end EnumConverter.Printing
