import EnumConverter.Proofs.Generate.Collision
import EnumConverter.Proofs.Inert.File
import EnumConverter.Proofs.Path.Join
import EnumConverter.Proofs.Path.Order

namespace EnumConverter

open Text Emit Scan

/-- Whether a source text holds a declaration or a diagnostic. -/
def holdsSome (settings : BuildSettings) (source : String) : Bool :=
  let built := build settings source
  !(built.declarations.isEmpty && built.diagnostics.isEmpty)

/-- Whether a header was found to hold a declaration or a diagnostic. -/
def FileAnalysis.holdsSome (file : FileAnalysis) : Bool :=
  !(file.declarations.isEmpty && file.diagnostics.isEmpty)

theorem FileAnalysis.eq_nil_of_holdsSome {file : FileAnalysis} (h : file.holdsSome = false) :
    file.declarations = [] ∧ file.diagnostics = [] := by
  simpa [holdsSome] using h

theorem holdsSome_analyzeFile (settings : BuildSettings) (file : SourceFile) :
    (analyzeFile settings file).holdsSome = EnumConverter.holdsSome settings file.content := by
  simp [FileAnalysis.holdsSome, analyzeFile, buildFile, EnumConverter.holdsSome]

theorem flatMap_filter {α β : Type} {keep : α → Bool} {read : α → List β} {items : List α}
    (h : ∀ item, keep item = false → read item = []) :
    (items.filter keep).flatMap read = items.flatMap read := by
  induction items with
  | nil => rfl
  | cons item items ih =>
    cases hkeep : keep item with
    | false => rw [List.filter_cons_of_neg (by simp [hkeep]), List.flatMap_cons, h item hkeep, ih,
        List.nil_append]
    | true => rw [List.filter_cons_of_pos hkeep, List.flatMap_cons, List.flatMap_cons, ih]

variable (settings : Settings) (headers : List SourceFile)

/-- The headers that hold something are read in the same order without the others. -/
theorem files_analyze_filter :
    (analyze settings (headers.filter
      fun header => holdsSome settings.annotation.build header.content)).files =
      (analyze settings headers).files.filter (·.holdsSome) := by
  rw [analyze, analyze, Path.filter_mergeSort_notAfter, List.filter_map]
  have hsame : (fun header : SourceFile => holdsSome settings.annotation.build header.content) =
      (·.holdsSome) ∘ analyzeFile settings.annotation.build :=
    funext fun header => (holdsSome_analyzeFile settings.annotation.build header).symm
  rw [hsame]

theorem declarations_analyze_filter :
    (analyze settings (headers.filter
      fun header => holdsSome settings.annotation.build header.content)).declarations =
      (analyze settings headers).declarations := by
  rw [Analysis.declarations, Analysis.declarations, files_analyze_filter]
  refine flatMap_filter fun file hfile => ?_
  rw [(FileAnalysis.eq_nil_of_holdsSome hfile).1, List.map_nil]

theorem diagnostics_analyze_filter :
    (analyze settings (headers.filter
      fun header => holdsSome settings.annotation.build header.content)).diagnostics =
      (analyze settings headers).diagnostics := by
  rw [Analysis.diagnostics, Analysis.diagnostics, files_analyze_filter]
  exact flatMap_filter fun file hfile => (FileAnalysis.eq_nil_of_holdsSome hfile).2

theorem build_of_scan {settings : BuildSettings} {source : String} (h : scan source = {}) :
    holdsSome settings source = false := by
  rw [holdsSome, build, h]
  simp [buildEnums, sortDiagnostics]

/-- Without line feeds in paths, generated files hold nothing. -/
theorem holdsSome_outputFiles {snake : String → String} (hsnake : KeepsOut '\n' snake)
    {settings : Settings} {headers : List SourceFile}
    (hheaders : ∀ header ∈ headers, '\n' ∉ header.relativePath.text.toList)
    (hdirectory : '\n' ∉ settings.output.includeDir.toList)
    (hextension : '\n' ∉ settings.output.headerExtension.toList) :
    ∀ file ∈ outputFiles snake settings.output (analyze settings headers).declarations,
      holdsSome settings.annotation.build file.content = false := by
  intro file hfile
  obtain ⟨⟨path, declaration⟩, hentry, hpair⟩ := List.mem_flatMap.1 hfile
  obtain ⟨header, hmem, hpath, hdeclaration⟩ := mem_declarations_analyze.1 hentry
  have hspelled := build_spelled settings.annotation.build header.content declaration hdeclaration
  have htarget : '\n' ∉ path.includeText.toList := by
    rw [show path = header.relativePath from hpath]
    exact Path.notMem_includeText (by decide) (by decide) (hheaders header hmem)
  have hinclude := hspelled.lineFeed_notMem_includeText hsnake hdirectory hextension
  have hconverters : ∀ converter ∈
      declaration.requested.toList.map (written settings.output.indent declaration),
      converter.Quiet :=
    List.forall_mem_map.2 fun kind _ => hspelled.quiet_written settings.output.indent kind
  have hheader : scan (convertersFor snake settings.output path declaration).header = {} :=
    hspelled.scan_header htarget hconverters
  obtain rfl | hother := List.mem_cons.1 hpair
  · exact build_of_scan hheader
  · obtain rfl := List.mem_singleton.1 hother
    exact build_of_scan (hspelled.scan_source htarget hconverters hinclude)

end EnumConverter
