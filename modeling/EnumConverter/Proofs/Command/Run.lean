import EnumConverter.Command.Run
import EnumConverter.Proofs.Generate.Collision
import EnumConverter.Proofs.Project.Store

namespace EnumConverter

open Emit FileTree

variable {tools : Toolkit} {snake : String → String} {input : Path} {settings : Settings}
  {options : GenerateOptions} {tree after : FileTree} {headers : List SourceFile} {files : List GeneratedFile}

namespace Outcome

theorem after_after (first second : List String) (outcome : Outcome) :
    (outcome.after second).after first = outcome.after (first ++ second) := by
  simp only [after, List.append_assoc]

theorem infix_after {part : List String} {outcome : Outcome} (h : part <:+: outcome.lines)
    (lines : List String) : part <:+: (outcome.after lines).lines :=
  h.trans (List.suffix_append lines outcome.lines).isInfix

end Outcome

theorem files_analyze_nil (settings : Settings) : (analyze settings []).files = [] := by
  simp [analyze]

theorem declarations_analyze_nil (settings : Settings) : (analyze settings []).declarations = [] := by
  rw [Analysis.declarations, files_analyze_nil, List.flatMap_nil]

theorem failures_analyze_nil (settings : Settings) (policy : DiagnosticPolicy) :
    policy.failures (analyze settings []) = 0 := by
  simp [DiagnosticPolicy.failures, Analysis.count, Analysis.diagnostics, files_analyze_nil]

theorem generate_of_declarations_eq_nil {analysis : Analysis} (h : analysis.declarations = [])
    (output : OutputSettings) (registry : Registry) :
    (generate snake output registry analysis).files = .ok [] := by
  rw [generate, h]
  rfl

/-- If there is nothing to generate, nothing is written. -/
theorem written_of_declarations_eq_nil {analysis : Analysis} {writer : Writer}
    {results : List WriteResult} (h : analysis.declarations = []) {output : OutputSettings}
    {registry : Registry} (hfiles : (generate snake output registry analysis).files = .ok files)
    (hwritten : writer.writeAll tree files = (after, .ok results)) : after = tree ∧ results = [] := by
  rw [generate_of_declarations_eq_nil h] at hfiles
  obtain rfl := Except.ok.inj hfiles
  obtain ⟨htree, hresults⟩ := Prod.mk.inj hwritten
  exact ⟨htree.symm, (Except.ok.inj hresults).symm⟩

section Convert

variable {analysis : Analysis} (hdry : options.dryRun = false)
include hdry

theorem written_of_convert (hok : (convert snake settings options analysis tree).failure = none) :
    options.policy.failures analysis = 0 ∧ ∃ files results,
      (generate snake settings.output .builtin analysis).files = .ok files ∧
      (Writer.mk settings.output.dir false).writeAll tree files =
        ((convert snake settings options analysis tree).tree, .ok results) := by
  unfold convert at hok ⊢
  dsimp only at hok ⊢
  split at hok
  · cases hok
  rename_i hpolicy
  rw [if_neg hpolicy]
  refine ⟨Nat.eq_zero_of_not_pos hpolicy, ?_⟩
  split at hok
  · rename_i hempty
    rw [if_pos hempty]
    exact ⟨[], [], generate_of_declarations_eq_nil (List.isEmpty_iff.1 hempty) _ _, rfl⟩
  rename_i hdeclarations
  rw [if_neg hdeclarations]
  rw [Outcome.after_failure, writeConverters, hdry] at hok
  rw [Outcome.after_tree, writeConverters, hdry]
  dsimp only at hok ⊢
  cases hfiles : (generate snake settings.output .builtin analysis).files with
  | error error =>
    rw [hfiles] at hok
    cases hok
  | ok files =>
    rw [hfiles] at hok
    dsimp only at hok ⊢
    cases hwritten : (Writer.mk settings.output.dir false).writeAll tree files with
    | mk last results =>
      rw [hwritten] at hok
      cases results with
      | error error => cases hok
      | ok results => exact ⟨files, results, rfl, hwritten⟩

theorem convert_of_written {results : List WriteResult} (hpolicy : options.policy.failures analysis = 0)
    (hfiles : (generate snake settings.output .builtin analysis).files = .ok files)
    (hwritten : (Writer.mk settings.output.dir false).writeAll tree files = (after, .ok results)) :
    (convert snake settings options analysis tree).failure = none ∧
      (convert snake settings options analysis tree).tree = after ∧
      results.flatMap (·.lines) <:+: (convert snake settings options analysis tree).lines := by
  unfold convert
  dsimp only
  rw [if_neg (by omega)]
  split
  · rename_i hempty
    obtain ⟨rfl, rfl⟩ := written_of_declarations_eq_nil (List.isEmpty_iff.1 hempty) hfiles hwritten
    exact ⟨rfl, rfl, List.nil_infix⟩
  · rw [Outcome.after_failure, Outcome.after_tree, writeConverters, hdry]
    dsimp only
    rw [hfiles]
    dsimp only
    rw [hwritten]
    exact ⟨rfl, rfl, Outcome.infix_after (List.prefix_append ..).isInfix _⟩

end Convert

/-- A run finds headers whose diagnostics are accepted, generates files and writes them. -/
structure Runs (tools : Toolkit) (input : Path) (settings : Settings) (policy : DiagnosticPolicy)
    (headers : List SourceFile) (files : List GeneratedFile) (results : List WriteResult)
    (tree after : FileTree) : Prop where
  found : findHeaders tools.walk tree input settings.scan none = .ok headers
  accepted : policy.failures (analyze settings headers) = 0
  generated : (generate tools.snake settings.output .builtin (analyze settings headers)).files =
    .ok files
  written : (Writer.mk settings.output.dir false).writeAll tree files = (after, .ok results)

section Generate

variable (hfilter : options.filter = none)
include hfilter

theorem runGenerate_of_none (hfound : findHeaders tools.walk tree input settings.scan none = .ok []) :
    ∃ lines, runGenerate tools input settings options tree = { tree, lines } := by
  unfold runGenerate
  rw [hfilter, hfound]
  exact ⟨_, rfl⟩

/-- What is done with headers that were found. -/
theorem runGenerate_of_found
    (hfound : findHeaders tools.walk tree input settings.scan none = .ok headers)
    (hne : headers ≠ []) : ∃ lines, runGenerate tools input settings options tree =
      (convert tools.snake settings options (analyze settings headers) tree).after lines := by
  obtain ⟨header, rest, rfl⟩ := List.exists_cons_of_ne_nil hne
  unfold runGenerate
  rw [hfilter, hfound]
  exact ⟨_, Outcome.after_after ..⟩

/-- A run that goes well does all its steps, though it may stop early. -/
theorem runs_of_runGenerate (hdry : options.dryRun = false)
    (hok : (runGenerate tools input settings options tree).failure = none) :
    ∃ headers files results, Runs tools input settings options.policy headers files results tree
      (runGenerate tools input settings options tree).tree := by
  cases hfound : findHeaders tools.walk tree input settings.scan none with
  | error error =>
    unfold runGenerate at hok
    rw [hfilter, hfound] at hok
    cases hok
  | ok headers =>
    by_cases hne : headers = []
    · subst hne
      obtain ⟨lines, hrun⟩ := runGenerate_of_none hfilter hfound
      rw [hrun]
      exact ⟨[], [], [], hfound, failures_analyze_nil settings options.policy,
        generate_of_declarations_eq_nil (declarations_analyze_nil settings) _ _, rfl⟩
    · obtain ⟨lines, hrun⟩ := runGenerate_of_found hfilter hfound hne
      rw [hrun, Outcome.after_failure] at hok
      rw [hrun, Outcome.after_tree]
      obtain ⟨hpolicy, files, results, hfiles, hwritten⟩ := written_of_convert hdry hok
      exact ⟨headers, files, results, hfound, hpolicy, hfiles, hwritten⟩

/-- A run that can do all its steps goes well, and reports what was done with each file. -/
theorem Runs.runGenerate {results : List WriteResult} (hdry : options.dryRun = false)
    (h : Runs tools input settings options.policy headers files results tree after) :
    (runGenerate tools input settings options tree).failure = none ∧
      (runGenerate tools input settings options tree).tree = after ∧
      results.flatMap (·.lines) <:+: (runGenerate tools input settings options tree).lines := by
  by_cases hne : headers = []
  · subst hne
    obtain ⟨lines, hrun⟩ := runGenerate_of_none hfilter h.found
    obtain ⟨rfl, rfl⟩ :=
      written_of_declarations_eq_nil (declarations_analyze_nil settings) h.generated h.written
    rw [hrun]
    exact ⟨rfl, rfl, List.nil_infix⟩
  · obtain ⟨lines, hrun⟩ := runGenerate_of_found hfilter h.found hne
    obtain ⟨hfailure, htree, hlines⟩ := convert_of_written hdry h.accepted h.generated h.written
    rw [hrun]
    exact ⟨hfailure, htree, Outcome.infix_after hlines lines⟩

end Generate

/-- Everything is up to date if the texts of all files are there. -/
theorem runValidate_of_find?
    (hfound : findHeaders tools.walk tree input settings.scan none = .ok headers)
    (hgenerated : (generate tools.snake settings.output .builtin (analyze settings headers)).files =
      .ok files)
    (hthere : ∀ file ∈ files,
      tree.find? ((Writer.mk settings.output.dir false).target file) = some (.text file.content)) :
    runValidate tools input settings tree =
      { tree, lines := ["✓ " ++ toString files.length ++ " file(s) are up-to-date"] } := by
  have hstatuses : checkConverters tools input settings tree = .ok (files.map fun file =>
      .fresh ((Writer.mk settings.output.dir false).target file)) := by
    rw [checkConverters, hfound]
    change ((generate tools.snake settings.output .builtin (analyze settings headers)).files.mapError
      CommandError.generate >>= fun files =>
        ((Writer.mk settings.output.dir false).check tree files).mapError .write) = _
    rw [hgenerated]
    change ((Writer.mk settings.output.dir false).check tree files).mapError CommandError.write = _
    rw [Writer.check_of_find? hthere]
    rfl
  have houtdated : (files.map fun file => FileStatus.fresh
      ((Writer.mk settings.output.dir false).target file)).filter (!·.isFresh) = [] := by
    simp [FileStatus.isFresh]
  unfold runValidate
  rw [hstatuses]
  dsimp only
  rw [houtdated, List.length_map]
  rfl

theorem ok_of_mapError {ε δ α : Type} {result : Except ε α} {wrap : ε → δ} {value : α}
    (h : result.mapError wrap = .ok value) : result = .ok value := by
  cases result with
  | error error => cases h
  | ok found => exact congrArg Except.ok (Except.ok.inj h)

/-- Only if the texts of the files for all declarations are there, everything is up to date. -/
theorem find?_of_runValidate
    (hfound : findHeaders tools.walk tree input settings.scan none = .ok headers)
    (hok : (runValidate tools input settings tree).failure = none) :
    ∀ header ∈ headers, ∀ declaration ∈ (build settings.annotation.build header.content).declarations,
      ∀ file ∈ (convertersFor tools.snake settings.output header.relativePath declaration).files,
        tree.find? (settings.output.dir.join file.path) = some (.text file.content) := by
  intro header hheader declaration hdeclaration file hfile
  unfold runValidate at hok
  split at hok
  · cases hok
  rename_i statuses hstatuses
  obtain ⟨found, hfoundAgain, hrest⟩ := ok_of_bind_eq_ok hstatuses
  obtain rfl : found = headers := Except.ok.inj ((ok_of_mapError hfoundAgain).symm.trans hfound)
  obtain ⟨files, hgenerated, hcheck⟩ := ok_of_bind_eq_ok hrest
  obtain ⟨rfl, -⟩ := outputFiles_of_generate (ok_of_mapError hgenerated)
  have hentry : (header.relativePath, declaration) ∈ (analyze settings found).declarations :=
    mem_declarations_analyze.2 ⟨header, hheader, rfl, hdeclaration⟩
  refine Writer.find?_of_check (ok_of_mapError hcheck) (fun status hstatus => ?_) file
    (List.mem_flatMap.2 ⟨_, hentry, hfile⟩)
  dsimp only at hok
  split at hok
  · rename_i hempty
    simpa using List.filter_eq_nil_iff.1 (List.isEmpty_iff.1 hempty) status hstatus
  · cases hok

end EnumConverter
