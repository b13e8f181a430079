import EnumConverter.Proofs.Build.Accounts
import EnumConverter.Proofs.Document.Content
import EnumConverter.Proofs.Scan.Provenance

namespace EnumConverter

open Source Scan Annotation Text

theorem Scan.exists_token_of_mem_words {source : String} {raw : RawEnum}
    (hraw : raw ∈ (scan source).enums) {word : PlacedWord} (hword : word ∈ raw.words) :
    ∃ token ∈ tokenize source, token.position = word.2 := by
  have hmem : word ∈ wordsOf (tokenize source) :=
    (words_scan source).subset (List.mem_flatMap.2 ⟨raw, hraw, hword⟩)
  obtain ⟨token, htoken, -, hposition⟩ := mem_wordsOf hmem
  exact ⟨token, htoken, hposition⟩

theorem Annotation.normalize_isInfix (text : String) :
    (normalize text).toList <:+: text.toList := by
  have hpunctuation (cs : List Char) : dropEndPunctuation cs <+: cs := by
    unfold dropEndPunctuation
    split
    · exact List.dropLast_prefix cs
    · exact List.prefix_rfl
  rw [normalize, String.toList_ofList]
  exact (trimEnd_isPrefix _).isInfix.trans
    ((hpunctuation _).isInfix.trans (trim_isInfix text.toList))

theorem Scan.RawEnum.mem_contentLines {marker : Marker} {raw : RawEnum} {content : ContentLine}
    (h : content ∈ raw.unrecognizedLines marker) : content ∈ raw.doc.contentLines := by
  have hbelow := List.mem_of_mem_filter (List.mem_of_mem_filter h)
  exact (List.dropWhile_suffix _).mem hbelow

/-- A line of documentation comes from a comment of the source, on the line on which it stands there. -/
theorem Scan.exists_quotedFrom {source : String} {raw : RawEnum} (hraw : raw ∈ (scan source).enums)
    {content : ContentLine} (h : content ∈ raw.doc.contentLines) :
    ∃ comment ∈ raw.doc, content ∈ contentLines comment.text comment.style comment.line ∧
      comment.QuotedFrom source := by
  obtain ⟨comment, hcomment, hcontent⟩ := List.mem_flatMap.1 h
  exact ⟨comment, hcomment, hcontent, quotedFrom_of_mem_doc hraw comment hcomment⟩

/-- The report of a line that is not understood stands on a line of the source that has its words. -/
theorem Scan.onLine_of_mem_directiveWarnings {source : String} {raw : RawEnum}
    (hraw : raw ∈ (scan source).enums) {marker : Marker} {diagnostic : Diagnostic}
    (h : diagnostic ∈ raw.directiveWarnings marker) :
    ∃ content ∈ raw.doc.contentLines,
      diagnostic.message = "unrecognized directive '" ++ normalize content.text ++ "' on enum '" ++
        displayName raw.name ++ "'" ∧
      diagnostic.position = ⟨content.line, 1⟩ ∧
      OnLine source.toList diagnostic.position.line (normalize content.text).toList := by
  obtain ⟨content, hline, rfl⟩ := List.mem_map.1 h
  have hcontent := RawEnum.mem_contentLines hline
  obtain ⟨comment, -, hfrom, hquoted⟩ := exists_quotedFrom hraw hcontent
  obtain ⟨-, -, hstands⟩ := hquoted.onLine content hfrom
  exact ⟨content, hcontent, rfl, rfl, hstands.of_isInfix (normalize_isInfix content.text)⟩

theorem buildEnumerators_positions (path : QualifiedPath) (raws : List RawEnumerator) :
    ∀ diagnostic ∈ (buildEnumerators path [] raws).2,
      ∃ raw ∈ raws, diagnostic.position = raw.position := by
  induction raws using List.reverseRecOn with
  | nil => simp [buildEnumerators]
  | append_singleton raws raw ih =>
    intro diagnostic hdiagnostic
    have hearlier (hmem : diagnostic ∈ (buildEnumerators path [] raws).2) :
        ∃ other ∈ raws ++ [raw], diagnostic.position = other.position := by
      obtain ⟨other, hother, hposition⟩ := ih diagnostic hmem
      exact ⟨other, List.mem_append_left _ hother, hposition⟩
    have hlast (hposition : diagnostic.position = raw.position) :
        ∃ other ∈ raws ++ [raw], diagnostic.position = other.position :=
      ⟨raw, by simp, hposition⟩
    rw [buildEnumerators_concat] at hdiagnostic
    split at hdiagnostic
    · obtain hmem | hrepeated := List.mem_append.1 hdiagnostic
      · exact hearlier hmem
      · obtain rfl := List.mem_singleton.1 hrepeated
        exact hlast rfl
    · obtain hmem | hproblem := List.mem_append.1 hdiagnostic
      · exact hearlier hmem
      · obtain ⟨problem, -, rfl⟩ := List.mem_map.1 hproblem
        exact hlast rfl

/-- What an enum reports is about lines of its documentation, or it stands at a word of the enum. -/
theorem Scan.RawEnum.Outcome.places {settings : BuildSettings} {earlier : List RawEnum} {raw : RawEnum}
    {result : Option Declaration × List Diagnostic} (h : raw.Outcome settings earlier result) :
    ∀ diagnostic ∈ result.2, diagnostic ∈ raw.directiveWarnings settings.marker ∨
      diagnostic.kind ≠ .unrecognizedDirective ∧ ∃ word ∈ raw.words, diagnostic.position = word.2 := by
  intro diagnostic hdiagnostic
  cases h with
  | unmarked => cases hdiagnostic
  | suppressed => exact .inl hdiagnostic
  | dropped _ _ hposition hfault =>
    obtain hwarning | hreport := List.mem_append.1 hdiagnostic
    · exact .inl hwarning
    · obtain rfl := List.mem_singleton.1 hreport
      have hkind := mem_dropKinds_of_firstFault? hfault
      refine .inr ⟨?_, ("enum", raw.position), List.mem_cons_self .., hposition⟩
      intro hwarning
      rw [hwarning] at hkind
      simp [dropKinds] at hkind
  | declared =>
    obtain hwarning | hproblem := List.mem_append.1 hdiagnostic
    · exact .inl hwarning
    · obtain ⟨enumerator, henumerator, hposition⟩ :=
        buildEnumerators_positions _ _ diagnostic hproblem
      refine .inr ⟨?_, enumerator.word,
        List.mem_cons_of_mem _ (List.mem_map_of_mem henumerator), hposition⟩
      obtain hkind | hkind := buildEnumerators_kinds _ _ diagnostic hproblem
      · simp [hkind]
      · simp [hkind]

/-- What building returns as a diagnostic is a report about a line that is not understood, or stands at a
token. -/
theorem build_places (settings : BuildSettings) (source : String) :
    ∀ diagnostic ∈ (build settings source).diagnostics,
      (∃ raw ∈ (scan source).enums, diagnostic ∈ raw.directiveWarnings settings.marker) ∨
        diagnostic.kind ≠ .unrecognizedDirective ∧
          ∃ token ∈ tokenize source, token.position = diagnostic.position := by
  intro diagnostic hdiagnostic
  have hmem := (sortDiagnostics_perm _).mem_iff.1 hdiagnostic
  obtain hscanned | hbuilt := List.mem_append.1 hmem
  · have hkind := scan_onlyBraces source diagnostic hscanned
    exact .inr ⟨by simp [hkind], scanTokens_diagnostics _ diagnostic hscanned⟩
  · obtain ⟨raw, hraw, earlier, result, houtcome, hgiven⟩ := exists_outcome settings hbuilt
    obtain hwarning | ⟨hkind, word, hword, hposition⟩ := houtcome.places diagnostic hgiven
    · exact .inl ⟨raw, hraw, hwarning⟩
    · rw [hposition]
      exact .inr ⟨hkind, exists_token_of_mem_words hraw hword⟩

/-- Every diagnostic has a line of the source and a column. Documentation is kept with the lines on which
it stands in the source, wherever a scan stands and with every enum that it finds. So a directive that is
not understood is reported on the line that has the words of the report, and every other diagnostic stands
at a token. -/
theorem diagnostics_located (settings : BuildSettings) (source : String) :
    (∀ diagnostic ∈ (build settings source).diagnostics,
      1 ≤ diagnostic.position.line ∧
      diagnostic.position.line ≤ 1 + source.toList.count '\n' ∧
      1 ≤ diagnostic.position.column) ∧
    (∀ state rest, Visits (tokenize source) state rest →
      ∀ comment ∈ state.doc, comment.QuotedFrom source) ∧
    (∀ raw ∈ (scan source).enums, ∀ content ∈ raw.doc.contentLines,
      ∃ comment ∈ raw.doc, content ∈ contentLines comment.text comment.style comment.line ∧
        comment.QuotedFrom source) ∧
    (∀ diagnostic ∈ (build settings source).diagnostics, diagnostic.kind = .unrecognizedDirective →
      ∃ raw ∈ (scan source).enums, ∃ content ∈ raw.doc.contentLines,
        diagnostic.message = "unrecognized directive '" ++ normalize content.text ++ "' on enum '" ++
          displayName raw.name ++ "'" ∧
        diagnostic.position = ⟨content.line, 1⟩ ∧
        OnLine source.toList diagnostic.position.line (normalize content.text).toList) ∧
    (∀ diagnostic ∈ (build settings source).diagnostics, diagnostic.kind ≠ .unrecognizedDirective →
      ∃ token ∈ tokenize source, token.position = diagnostic.position) := by
  refine ⟨?_, fun state rest hvisit => hvisit.quotedFrom,
    fun raw hraw content hcontent => exists_quotedFrom hraw hcontent, ?_, ?_⟩
  · intro diagnostic hdiagnostic
    obtain ⟨raw, hraw, hwarning⟩ | ⟨-, token, htoken, hposition⟩ :=
      build_places settings source diagnostic hdiagnostic
    · obtain ⟨content, -, -, hposition, hstands⟩ := onLine_of_mem_directiveWarnings hraw hwarning
      obtain ⟨hlower, hupper⟩ := hstands.bounds
      exact ⟨hlower, hupper, by simp [hposition]⟩
    · rw [← hposition]
      exact position_bounds htoken
  · intro diagnostic hdiagnostic hkind
    obtain ⟨raw, hraw, hwarning⟩ | ⟨hother, -⟩ := build_places settings source diagnostic hdiagnostic
    · exact ⟨raw, hraw, onLine_of_mem_directiveWarnings hraw hwarning⟩
    · exact absurd hkind hother
  · intro diagnostic hdiagnostic hkind
    obtain ⟨raw, hraw, hwarning⟩ | ⟨-, htoken⟩ := build_places settings source diagnostic hdiagnostic
    · exact absurd (kind_directiveWarnings _ raw diagnostic hwarning) hkind
    · exact htoken

/-- An enum whose body is not closed, with documentation in two comments. The first one starts with a line
that says nothing, and carriage returns stand before its line feeds. -/
def unclosedBody : String :=
  "\n/**\r\n * @cpp_codegen\r\n*/\n/// xml, yaml.\nenum e \x7b"

/-- The report about the line that is not understood. -/
def unknownLine : Diagnostic where
  kind := .unrecognizedDirective
  message := "unrecognized directive 'xml, yaml' on enum 'e'"
  position := ⟨5, 1⟩

def missingBrace : Diagnostic where
  kind := .unbalancedScope
  message := "body of enum 'e' is never closed"
  position := ⟨6, 8⟩

theorem diagnostics_located_unclosedBody :
    unknownLine ∈ (build {} unclosedBody).diagnostics ∧
    missingBrace ∈ (build {} unclosedBody).diagnostics ∧
    (1 ≤ unknownLine.position.line ∧
      unknownLine.position.line ≤ 1 + unclosedBody.toList.count '\n' ∧
      1 ≤ unknownLine.position.column) ∧
    ∃ token ∈ tokenize unclosedBody, token.position = missingBrace.position := by
  obtain ⟨hbounds, -, -, -, htokens⟩ := diagnostics_located {} unclosedBody
  have hunknown : unknownLine ∈ (build {} unclosedBody).diagnostics :=
    (sortDiagnostics_perm _).mem_iff.2 (by decide +kernel)
  have hmissing : missingBrace ∈ (build {} unclosedBody).diagnostics :=
    (sortDiagnostics_perm _).mem_iff.2 (by decide +kernel)
  exact ⟨hunknown, hmissing, hbounds unknownLine hunknown,
    htokens missingBrace hmissing (by simp [missingBrace])⟩

end EnumConverter
