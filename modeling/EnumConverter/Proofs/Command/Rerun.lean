import EnumConverter.Proofs.Command.Run
import EnumConverter.Proofs.Generate.FileOrder
import EnumConverter.Proofs.Generate.Places
import EnumConverter.Proofs.Generate.Quiet
import EnumConverter.Proofs.Project.Headers
import EnumConverter.Proofs.Project.Rules

namespace EnumConverter

open Emit FileTree Text

variable {tools : Toolkit} {rules : IgnoreRules} {input : Path} {settings : Settings}
  {options : GenerateOptions} {tree after : FileTree} {headers : List SourceFile}
  {files : List GeneratedFile}

/-- A run of `generate` leaves what the next run reads as it is. -/
structure LeavesInput (tools : Toolkit) (rules : IgnoreRules) (input : Path) (settings : Settings)
    (headers : List SourceFile) (tree after : FileTree) : Prop where
  /-- No output path leads to an ignore file, or to anything else that the rules depend on. -/
  ignoreFiles : ∀ needed ∈ outputPaths tools.snake settings.output.toLayout
    (analyze settings headers).declarations, ∀ place,
      after.locate (settings.output.dir.join needed.1) = .ok place →
      ¬ rules.files tree settings.scan.respectGitignore place ∧
        ¬ rules.marks tree settings.scan.respectGitignore place
  /-- No directory that the rules depend on is made. -/
  marks : ∀ place, rules.marks tree settings.scan.respectGitignore place →
    after.item? place = some .directory → tree.item? place = some .directory
  /-- The next walk meets no faults. -/
  walk : ∃ paths : List Path, tools.walk after input settings.scan.respectGitignore = paths.map .ok
  /-- Only headers that hold nothing are written to. -/
  overlap : ∀ header ∈ headers, ∀ needed ∈ outputPaths tools.snake settings.output.toLayout
    (analyze settings headers).declarations,
      after.locate header.path = after.locate (settings.output.dir.join needed.1) →
      holdsSome settings.annotation.build header.content = false

theorem exists_needed {snake : String → String} {output : OutputSettings}
    {declarations : List (Path × Declaration)} {file : GeneratedFile}
    (h : file ∈ outputFiles snake output declarations) :
    ∃ needed ∈ outputPaths snake output.toLayout declarations, needed.1 = file.path := by
  rw [← List.mem_map, ← map_path_outputFiles]
  exact List.mem_map_of_mem h

/-- What the next run reads holds the same as before. -/
theorem LeavesInput.findHeaders (h : LeavesInput tools rules input settings headers tree after)
    (hwalk : tools.walk.Follows rules) (hsnake : IsSnakeRule tools.snake) (htree : tree.Grounded)
    (hfound : findHeaders tools.walk tree input settings.scan none = .ok headers)
    (hstored : (Writer.mk settings.output.dir false).AllStored
      (outputFiles tools.snake settings.output (analyze settings headers).declarations) tree after)
    (hfeeds : ∀ header ∈ headers, '\n' ∉ header.relativePath.text.toList)
    (hdirectory : '\n' ∉ settings.output.includeDir.toList)
    (hextension : '\n' ∉ settings.output.headerExtension.toList) :
    ∃ later, findHeaders tools.walk after input settings.scan none = .ok later ∧
      (analyze settings later).declarations = (analyze settings headers).declarations ∧
      (analyze settings later).diagnostics = (analyze settings headers).diagnostics := by
  let search : Search := { root := input, settings := settings.scan }
  have hplaces : ∀ place content, (∃ file ∈ outputFiles tools.snake settings.output
      (analyze settings headers).declarations,
        after.locate ((Writer.mk settings.output.dir false).target file) = .ok place ∧
          content = file.content) →
      ¬ rules.files tree settings.scan.respectGitignore place ∧
        ¬ rules.marks tree settings.scan.respectGitignore place := by
    rintro place content ⟨file, hfile, hplace, -⟩
    obtain ⟨needed, hneeded, hpath⟩ := exists_needed hfile
    exact h.ignoreFiles needed hneeded place (hpath ▸ hplace)
  have hspares : search.Spares rules (holdsSome settings.annotation.build) headers
      (fun place content => ∃ file ∈ outputFiles tools.snake settings.output
        (analyze settings headers).declarations,
          after.locate ((Writer.mk settings.output.dir false).target file) = .ok place ∧
            content = file.content) tree after := by
    refine ⟨hstored.edits, ?_, ?_, ?_, ?_⟩
    · intro place hignore
      exact hstored.edits.file?_eq fun content hwritten => (hplaces place content hwritten).1 hignore
    · intro place hmark
      obtain hsame | ⟨hfree, hmade⟩ := hstored.edits.item?_cases
        fun content hwritten => (hplaces place content hwritten).2 hmark
      · exact hsame
      · rw [h.marks place hmark hmade] at hfree
        cases hfree
    · rintro place content ⟨file, hfile, -, rfl⟩
      exact holdsSome_outputFiles (hsnake.keepsOut '\n' (by decide)) hfeeds hdirectory hextension
        file hfile
    · rintro header hheader place content ⟨file, hfile, hplace, -⟩ hheaderPlace
      obtain ⟨needed, hneeded, hpath⟩ := exists_needed hfile
      refine h.overlap header hheader needed hneeded (hheaderPlace.trans ?_)
      rw [hpath]
      exact hplace.symm
  obtain ⟨later, hlater, hperm, hdistinct⟩ := hspares.findAll hwalk htree hfound h.walk
  have hsame : analyze settings _ = analyze settings _ :=
    analyze_eq_of_perm settings hperm hdistinct
  refine ⟨later, hlater, ?_, ?_⟩
  · rw [← declarations_analyze_filter settings later, hsame, declarations_analyze_filter]
  · rw [← diagnostics_analyze_filter settings later, hsame, diagnostics_analyze_filter]

theorem failures_of_diagnostics_eq {first second : Analysis}
    (h : first.diagnostics = second.diagnostics) (policy : DiagnosticPolicy) :
    policy.failures first = policy.failures second := by
  simp only [DiagnosticPolicy.failures, Analysis.count, h]

/-- After a run that goes well everything is up to date, and the next run goes well and changes
nothing. -/
theorem validate_after_generate {first : Outcome} (hwalk : tools.walk.Follows rules)
    (hsnake : IsSnakeRule tools.snake) (htree : tree.Grounded) (hfilter : options.filter = none)
    (hdry : options.dryRun = false) (hrun : runGenerate tools input settings options tree = first)
    (hok : first.failure = none)
    (hfound : findHeaders tools.walk tree input settings.scan none = .ok headers)
    (hfeeds : ∀ header ∈ headers, '\n' ∉ header.relativePath.text.toList)
    (hdirectory : '\n' ∉ settings.output.includeDir.toList)
    (hextension : '\n' ∉ settings.output.headerExtension.toList)
    (hheaderUp : ".." ∉ (Path.mk settings.output.headerExtension).parts)
    (hsourceUp : ".." ∉ (Path.mk settings.output.sourceExtension).parts)
    (hinput : LeavesInput tools rules input settings headers tree first.tree) :
    let second := runGenerate tools input settings options first.tree
    ∃ files, (generate tools.snake settings.output .builtin (analyze settings headers)).files =
        .ok files ∧
      runValidate tools input settings first.tree =
        { tree := first.tree
          lines := ["✓ " ++ toString files.length ++ " file(s) are up-to-date"] } ∧
      second.failure = none ∧ second.tree = first.tree ∧
      (Writer.mk settings.output.dir false).writeAll first.tree files =
        (first.tree, .ok (files.map fun file => .unchanged (settings.output.dir.join file.path))) ∧
      (files.map fun file => "· Unchanged " ++ (settings.output.dir.join file.path).text) <:+:
        second.lines := by
  subst hrun
  obtain ⟨found, files, results, hfirst⟩ := runs_of_runGenerate hfilter hdry hok
  obtain rfl : found = headers := Except.ok.inj (hfirst.found.symm.trans hfound)
  obtain ⟨rfl, hapart⟩ := outputFiles_of_generate hfirst.generated
  have hstored := Writer.allStored_of_writeAll rfl hfirst.written
  have hspelled : ∀ entry ∈ (analyze settings found).declarations, entry.2.Spelled := by
    intro entry hentry
    obtain ⟨header, -, -, hdeclaration⟩ := mem_declarations_analyze.1 hentry
    exact build_spelled settings.annotation.build header.content entry.2 hdeclaration
  have hdistinct :=
    pairwise_locate_outputFiles hsnake hspelled hheaderUp hsourceUp hapart hstored.located
  have hthere := Writer.find?_of_writeAll rfl hfirst.written hdistinct
  obtain ⟨later, hlater, hdeclarations, hdiagnostics⟩ :=
    hinput.findHeaders hwalk hsnake htree hfound hstored hfeeds hdirectory hextension
  have hgenerated : (generate tools.snake settings.output .builtin (analyze settings later)).files =
      .ok (outputFiles tools.snake settings.output (analyze settings found).declarations) := by
    rw [generate, hdeclarations]
    exact hfirst.generated
  have hsecond : Runs tools input settings options.policy later
      (outputFiles tools.snake settings.output (analyze settings found).declarations) _
      (runGenerate tools input settings options tree).tree
      (runGenerate tools input settings options tree).tree :=
    ⟨hlater, (failures_of_diagnostics_eq hdiagnostics _).trans hfirst.accepted, hgenerated,
      Writer.writeAll_of_find? hthere rfl⟩
  obtain ⟨hsecondOk, hsecondTree, hlines⟩ := hsecond.runGenerate hfilter hdry
  refine ⟨_, hfirst.generated, ?_, hsecondOk, hsecondTree, Writer.writeAll_of_find? hthere rfl, ?_⟩
  · exact runValidate_of_find? hlater hgenerated hthere
  · rw [List.flatMap_map] at hlines
    rw [List.map_eq_flatMap]
    exact hlines

/-- Headers in order are read one after the other. -/
theorem analyze_of_pairwise (settings : Settings)
    (h : headers.Pairwise fun a b => a.relativePath.notAfter b.relativePath = true) :
    analyze settings headers = ⟨headers.map (analyzeFile settings.annotation.build)⟩ :=
  congrArg Analysis.mk (List.mergeSort_of_pairwise (List.pairwise_map.2 h))

theorem exists_ok_of_isSome {ε α : Type} {result : Except ε α} (h : result.toOption.isSome = true) :
    ∃ value, result = .ok value := by
  cases result with
  | error error => cases h
  | ok value => exact ⟨value, rfl⟩

namespace WalkStart

/-- The paths of the files that a walk reaches, before they are sorted. -/
def pathsIn (start : WalkStart) (tree : FileTree) : List Path :=
  ((tree.filesIn start.place).filter
    fun names => start.reaches (tree.ruleBook none) true names false).map start.path.behind

/-- The headers behind a start, before they are sorted. -/
def headersIn (start : WalkStart) (tree : FileTree) : Except ScanError (List SourceFile) :=
  let search : Search := { root := start.path }
  (((start.pathsIn tree).map .ok).mapM (search.visit tree)).map (·.filterMap id)

/-- A walk meets no faults. -/
def Passable (start : WalkStart) (tree : FileTree) : Prop :=
  tree.locate start.path = .ok start.place ∧ tree.contains start.path = true ∧
    start.path.isStandardInput = false ∧ start.startFaults tree true = [] ∧
    start.entryFault? tree (tree.ruleBook none) true = none

/-- A walk meets no faults, and all wanted files behind its start are texts. -/
def Legible (start : WalkStart) (tree : FileTree) : Prop :=
  start.Passable tree ∧ ∀ names ∈ tree.filesIn start.place,
    (Search.visit { root := start.path } tree (.ok (start.path.behind names))).toOption.isSome = true

/-- A header is behind a start. -/
def Finds (start : WalkStart) (tree : FileTree) (header : SourceFile) : Prop :=
  let names := header.relativePath.parts
  start.path.behind names = header.path ∧ tree.hasFile (start.place ++ names) = true ∧
    start.reaches (tree.ruleBook none) true names false = true ∧
    Search.headerAt? { root := start.path } tree header.path = some header

/-- The files and the headers behind a start are in the order in which they are found. -/
def InOrder (start : WalkStart) (tree : FileTree) (headers : List SourceFile) : Prop :=
  start.headersIn tree = .ok headers ∧
    (tree.filesIn start.place).Pairwise (fun a b => namesNotAfter a b = true) ∧
    headers.Pairwise fun a b => a.relativePath.notAfter b.relativePath = true

instance (start : WalkStart) (tree : FileTree) : Decidable (start.Passable tree) :=
  inferInstanceAs (Decidable (_ ∧ _))

instance (start : WalkStart) (tree : FileTree) : Decidable (start.Legible tree) :=
  inferInstanceAs (Decidable (_ ∧ _))

instance (start : WalkStart) (tree : FileTree) (header : SourceFile) :
    Decidable (start.Finds tree header) :=
  inferInstanceAs (Decidable (_ ∧ _))

instance (start : WalkStart) (tree : FileTree) (headers : List SourceFile) :
    Decidable (start.InOrder tree headers) :=
  inferInstanceAs (Decidable (_ ∧ _))

theorem ignoreWalk_of_passable {start : WalkStart} (h : start.Passable tree) :
    ignoreWalk none tree start.path true =
      ((start.files tree (tree.ruleBook none) true).map start.path.behind).map .ok := by
  obtain ⟨hlocate, -, hinput, hfaults, hentry⟩ := h
  unfold ignoreWalk entries
  rw [hinput, if_neg (by decide), hlocate]
  dsimp only
  rw [hfaults]
  dsimp only
  rw [hentry, List.map_map]
  rfl

theorem exists_findHeaders {start : WalkStart} (h : start.Legible tree) :
    ∃ later, findHeaders (ignoreWalk none) tree start.path {} none = .ok later ∧
      ∀ header, start.Finds tree header → header ∈ later := by
  obtain ⟨hpassable, hlegible⟩ := h
  let paths : List Path := (start.files tree (tree.ruleBook none) true).map start.path.behind
  have hreadable : ∀ path ∈ paths, Search.Readable { root := start.path } tree path := by
    intro path hpath
    obtain ⟨names, hnames, rfl⟩ := List.mem_map.1 hpath
    have hfile := mem_filesIn.2 (mem_filesBelow.1 (List.mem_filter.1 hnames).1)
    obtain ⟨visited, hvisited⟩ := exists_ok_of_isSome (hlegible names hfile)
    obtain ⟨_, hsame, hread, -⟩ := Search.visit_eq_ok_iff.1 hvisited
    obtain rfl := Except.ok.inj hsame
    exact hread
  refine ⟨_, Search.findAll_eq_ok_iff.2 ⟨hpassable.2.1, paths,
    ignoreWalk_of_passable hpassable, hreadable, rfl⟩, ?_⟩
  rintro header ⟨hpath, hfile, hreaches, hheader⟩
  refine Search.mem_headersAt.2 ⟨?_, hheader⟩
  rw [← hpath]
  exact List.mem_map_of_mem (List.mem_filter.2 ⟨mem_filesBelow.2 hfile, hreaches⟩)

theorem findHeaders_of_inOrder {start : WalkStart} (hpassable : start.Passable tree)
    (h : start.InOrder tree headers) :
    findHeaders (ignoreWalk none) tree start.path {} none = .ok headers := by
  obtain ⟨hheaders, hfiles, hsorted⟩ := h
  have hwalk : ignoreWalk none tree start.path true = (start.pathsIn tree).map .ok := by
    rw [ignoreWalk_of_passable hpassable, files, filesBelow_eq, List.mergeSort_of_pairwise hfiles,
      pathsIn]
  change Search.findAll { root := start.path } (ignoreWalk none) tree = _
  rw [Search.findAll, hpassable.2.1, if_neg (by decide), hwalk]
  unfold headersIn at hheaders
  dsimp only at hheaders
  cases hvisited : ((start.pathsIn tree).map .ok).mapM (Search.visit { root := start.path } tree) with
  | error error =>
    rw [hvisited] at hheaders
    cases hheaders
  | ok visited =>
    rw [hvisited] at hheaders
    obtain rfl := Except.ok.inj hheaders
    exact congrArg Except.ok (List.mergeSort_of_pairwise hsorted)

end WalkStart

/-- Whether an item has a name that makes a difference to ignore files. -/
def isRulePlace (place : Location) : Bool :=
  place.getLast?.any ruleNames.contains || [".git", "info", "exclude"].isSuffixOf place

/-- Where no mark of a working tree leads elsewhere, rules are known by their names. -/
theorem isRulePlace_of_ignoreRules {place : Location}
    (htree : ∀ entry ∈ tree.items, entry.1.getLast? = some ".git" → entry.2 = .directory)
    (h : IsIgnoreFile true place ∨ IsMark none tree place) : isRulePlace place = true := by
  obtain hfile | hmark := h
  · cases hfile with
    | general directory => simp [isRulePlace, ruleNames]
    | versioned hrespect directory => simp [isRulePlace, ruleNames]
    | excluded hrespect directory => simp [isRulePlace]
  · cases hmark with
    | repository hname directory =>
      have hrule := List.mem_cons_of_mem ".ignore" (List.mem_cons_of_mem ".gitignore" hname)
      simp only [isRulePlace, List.getLast?_append, List.getLast?_singleton, Option.some_or,
        Option.any_some, Bool.or_eq_true]
      exact .inl (List.contains_iff_mem.2 hrule)
    | linked directory hpath hplace =>
      have hthere : ∀ mark : Item, tree.item? (directory ++ [".git"]) = some mark → mark = .directory :=
        fun mark hmark => htree _ (mem_items_of_item? (by simp) hmark) (by simp)
      cases hpath with
      | link hmark hfile => exact absurd (hthere _ hmark) hfile
      | shared hmark hfile => exact absurd (hthere _ hmark) hfile
    | everywhere hpath => cases hpath

/-- A project whose files are in order, with the headers that are found and what they hold. -/
structure Sample where
  tree : FileTree
  start : WalkStart
  headers : List SourceFile
  analysis : Analysis
  passable : start.Passable tree
  inOrder : start.InOrder tree headers
  nonempty : headers ≠ []
  read : headers.map (analyzeFile {}) = analysis.files

namespace Sample

variable (sample : Sample) (output : OutputSettings)

theorem analyze_headers : analyze { output } sample.headers = sample.analysis := by
  rw [analyze_of_pairwise _ sample.inOrder.2.2]
  exact congrArg Analysis.mk sample.read

theorem findHeaders_tree :
    findHeaders (ignoreWalk none) sample.tree sample.start.path {} none = .ok sample.headers :=
  WalkStart.findHeaders_of_inOrder sample.passable sample.inOrder

/-- A run in the project. -/
def run : Outcome :=
  runGenerate (.standard none) sample.start.path { output } {} sample.tree

/-- What becomes of the project. -/
def outcome : Outcome :=
  convert snakeCase { output } {} sample.analysis sample.tree

theorem run_eq : ∃ lines, sample.run output = (sample.outcome output).after lines := by
  have hfilter : ({} : GenerateOptions).filter = none := rfl
  have hfound : findHeaders (Toolkit.standard none).walk sample.tree sample.start.path
      { output : Settings }.scan none = .ok sample.headers := sample.findHeaders_tree
  obtain ⟨lines, hrun⟩ := runGenerate_of_found hfilter hfound sample.nonempty
  rw [sample.analyze_headers] at hrun
  exact ⟨lines, hrun⟩

theorem failure_run : (sample.run output).failure = (sample.outcome output).failure := by
  obtain ⟨lines, hrun⟩ := sample.run_eq output
  rw [hrun, Outcome.after_failure]

theorem tree_run : (sample.run output).tree = (sample.outcome output).tree := by
  obtain ⟨lines, hrun⟩ := sample.run_eq output
  rw [hrun, Outcome.after_tree]

end Sample

/-- A header with one enum. -/
def headerWith (name : String) : String :=
  "/// @cpp_codegen\n/// json_serialization\nenum " ++ name ++ " \x7b a \x7d;\n"

/-- The declaration in `headerWith name`. -/
def declarationWith (name : String) : Declaration :=
  ⟨⟨[], name⟩, ⟨false, true⟩, [⟨"a", "a", "a", 3⟩], false, 3⟩

/-- A repository that ignores one of its headers, with a file of an earlier run, beside the home
directory. -/
def repositoryItems : List (Location × Item) :=
  [(["home"], .directory), (["work"], .directory), (["work", ".git"], .directory),
   (["work", ".git", "HEAD"], .text "ref: refs/heads/main\n"),
   (["work", ".gitignore"], .text "draft.hpp\n"), (["work", "Sub"], .directory),
   (["work", "Sub", "draft.hpp"], .text (headerWith "f")),
   (["work", "a.hpp"], .text (headerWith "e")), (["work", "out"], .directory),
   (["work", "out", "gen"], .directory), (["work", "out", "gen", "e.hpp"], .text "// Stale.\n")]

/-- What the headers of the repository hold. -/
def repositoryAnalysis : Analysis where
  files := [⟨⟨"a.hpp"⟩, [declarationWith "e"], []⟩, ⟨⟨"out/gen/e.hpp"⟩, [], []⟩]

/-- The repository as it is reached from the home directory. -/
def distantProject : Sample where
  tree := { items := repositoryItems, current := ["home"] }
  start := ⟨["work"], ⟨"../work"⟩⟩
  headers :=
    [⟨⟨"../work/a.hpp"⟩, ⟨"a.hpp"⟩, headerWith "e"⟩,
     ⟨⟨"../work/out/gen/e.hpp"⟩, ⟨"out/gen/e.hpp"⟩, "// Stale.\n"⟩]
  analysis := repositoryAnalysis
  passable := by decide +kernel
  inOrder := by decide +kernel
  nonempty := by decide
  read := by decide +kernel

theorem grounded_distantProject : distantProject.tree.Grounded :=
  grounded_of_items (by decide +kernel) (by decide +kernel)

/-- The directory of generated files by its absolute path. It is among the headers. -/
def distantOutput : OutputSettings := { dir := ⟨"/work/out"⟩, includeDir := "gen" }

/-- The run overwrites the file of the earlier run, and nothing that matters to ignore files. -/
theorem outcome_distantProject :
    let tree := (distantProject.outcome distantOutput).tree
    let outputs := outputPaths snakeCase distantOutput.toLayout distantProject.analysis.declarations
    (distantProject.outcome distantOutput).failure = none ∧
      (∀ needed ∈ outputs, ∀ place ∈ (tree.locate (distantOutput.dir.join needed.1)).toOption,
        isRulePlace place = false) ∧
      (∀ entry ∈ tree.items, isRulePlace entry.1 = true →
        distantProject.tree.item? entry.1 = some entry.2) ∧
      distantProject.start.Passable tree ∧
      ∀ header ∈ distantProject.headers, ∀ needed ∈ outputs,
        tree.locate header.path = tree.locate (distantOutput.dir.join needed.1) →
        holdsSome {} header.content = false := by
  decide +kernel

theorem leavesInput_distantProject : LeavesInput (.standard none) (ignoreRules none)
    distantProject.start.path { output := distantOutput } distantProject.headers distantProject.tree
    (distantProject.run distantOutput).tree := by
  obtain ⟨-, hplaces, hmarks, hpassable, hoverlap⟩ := outcome_distantProject
  have hnames : ∀ {place : Location}, IsIgnoreFile true place ∨ IsMark none distantProject.tree place →
      isRulePlace place = true :=
    fun hrule => isRulePlace_of_ignoreRules (by decide +kernel) hrule
  rw [distantProject.tree_run]
  refine ⟨?_, ?_, ?_, ?_⟩
  · rw [distantProject.analyze_headers]
    intro needed hneeded place hplace
    have hother := hplaces needed hneeded place (congrArg Except.toOption hplace)
    rw [← not_or]
    intro hrule
    rw [hnames (hrule.imp_right And.right)] at hother
    cases hother
  · intro place hmark hmade
    by_cases hroot : place = []
    · rw [hroot]
      rfl
    · exact hmarks _ (mem_items_of_item? hroot hmade) (hnames (.inr hmark.2))
  · have hstandard : (Toolkit.standard none).walk = ignoreWalk none := rfl
    rw [hstandard]
    exact ⟨_, WalkStart.ignoreWalk_of_passable hpassable⟩
  · rw [distantProject.analyze_headers]
    exact hoverlap

theorem validate_after_generate_distantProject :
    distantProject.tree.Grounded ∧ (distantProject.run distantOutput).failure = none ∧
      LeavesInput (.standard none) (ignoreRules none) ⟨"../work"⟩ { output := distantOutput }
        distantProject.headers distantProject.tree (distantProject.run distantOutput).tree ∧
      (runValidate (.standard none) ⟨"../work"⟩ { output := distantOutput }
        (distantProject.run distantOutput).tree).failure = none ∧
      (runGenerate (.standard none) ⟨"../work"⟩ { output := distantOutput } {}
        (distantProject.run distantOutput).tree).tree = (distantProject.run distantOutput).tree := by
  have hok : (distantProject.run distantOutput).failure = none :=
    (distantProject.failure_run distantOutput).trans outcome_distantProject.1
  obtain ⟨files, -, hvalidate, -, htree, -⟩ := validate_after_generate (follows_ignoreWalk none)
    isSnakeRule_snakeCase grounded_distantProject rfl rfl rfl hok distantProject.findHeaders_tree
    (by decide +kernel) (by decide +kernel) (by decide +kernel) (by decide +kernel)
    (by decide +kernel) leavesInput_distantProject
  refine ⟨grounded_distantProject, hok, leavesInput_distantProject, ?_, htree⟩
  exact congrArg Outcome.failure hvalidate

/-- A run goes well and writes to no ignore file and to no header that holds anything, and yet not all
of its files are up to date when it is over. -/
structure LeavesOutdated (tools : Toolkit) (input : Path) (settings : Settings)
    (headers : List SourceFile) (tree : FileTree) : Prop where
  accepted : settings.fault? = none
  finished : (runGenerate tools input settings {} tree).failure = none
  found : findHeaders tools.walk tree input settings.scan none = .ok headers
  lineFeeds : (∀ header ∈ headers, '\n' ∉ header.relativePath.text.toList) ∧
    ∀ text ∈ [settings.output.dir.text, settings.output.includeDir, settings.output.headerExtension,
      settings.output.sourceExtension], '\n' ∉ text.toList
  ignoreFiles : ∀ needed ∈ outputPaths tools.snake settings.output.toLayout
    (analyze settings headers).declarations,
      needed.1.fileName? ∉ [some ".ignore", some ".gitignore", some "exclude"]
  overlap : ∀ header ∈ headers, ∀ needed ∈ outputPaths tools.snake settings.output.toLayout
    (analyze settings headers).declarations,
      (runGenerate tools input settings {} tree).tree.locate header.path =
        (runGenerate tools input settings {} tree).tree.locate (settings.output.dir.join needed.1) →
      holdsSome settings.annotation.build header.content = false
  outdated : (∃ later, findHeaders tools.walk (runGenerate tools input settings {} tree).tree input
      settings.scan none = .ok later) ∧
    (runValidate tools input settings (runGenerate tools input settings {} tree).tree).failure ≠ none

/-- The repository as it is reached from its own directory. -/
def localProject : Sample where
  tree := { items := repositoryItems, current := ["work"] }
  start := ⟨["work"], ⟨"."⟩⟩
  headers :=
    [⟨⟨"./a.hpp"⟩, ⟨"a.hpp"⟩, headerWith "e"⟩,
     ⟨⟨"./out/gen/e.hpp"⟩, ⟨"out/gen/e.hpp"⟩, "// Stale.\n"⟩]
  analysis := repositoryAnalysis
  passable := by decide +kernel
  inOrder := by decide +kernel
  nonempty := by decide
  read := by decide +kernel

/-- A working tree that ignores its header, by an ignore file that its mark leads to. -/
def linkedProject : Sample where
  tree := {
    current := ["work"]
    items :=
      [(["work"], .directory), (["work", "a.hpp"], .text (headerWith "e")),
       (["work", "link"], .directory), (["work", "link", "commondir"], .text "shared\n"),
       (["work", "out"], .directory), (["work", "out", "gen"], .directory),
       (["work", "out", "gen", "e.x"], .directory),
       (["work", "out", "gen", "e.x", ".git"], .text "gitdir: link\n"),
       (["work", "out", "gen", "e.x", "draft.hpp"], .text (headerWith "f")),
       (["work", "shared"], .directory), (["work", "shared", "info"], .directory),
       (["work", "shared", "info", "exclude"], .text "draft.hpp\n")] }
  start := ⟨["work"], ⟨"."⟩⟩
  headers := [⟨⟨"./a.hpp"⟩, ⟨"a.hpp"⟩, headerWith "e"⟩]
  analysis := { files := [⟨⟨"a.hpp"⟩, [declarationWith "e"], []⟩] }
  passable := by decide +kernel
  inOrder := by decide +kernel
  nonempty := by decide
  read := by decide +kernel

/-- Settings with which the top of a repository is made among the headers. -/
def nestedRepository : OutputSettings := { dir := ⟨"Sub/.git"⟩, includeDir := "gen" }

/-- Settings with which the mark of a working tree is overwritten. -/
def overwrittenMark : OutputSettings :=
  { dir := ⟨"out"⟩, includeDir := "gen", headerExtension := "x/.git" }

/-- Settings with which both files of an enum go to one place. -/
def sharedPlace : OutputSettings :=
  { dir := ⟨"out"⟩, includeDir := "gen", headerExtension := "a/../z", sourceExtension := "b/../z" }

/-- A run, and a declaration in a header whose own header is not up to date when the run is over. -/
structure OutdatedRun where
  sample : Sample
  output : OutputSettings
  header : SourceFile
  declaration : Declaration

/-- In the first two runs an ignored header is found in the end. In the last one the source file of an
enum is where its header should be. -/
def outdatedRuns : List OutdatedRun :=
  [⟨localProject, nestedRepository, ⟨⟨"./Sub/draft.hpp"⟩, ⟨"Sub/draft.hpp"⟩, headerWith "f"⟩,
      declarationWith "f"⟩,
   ⟨linkedProject, overwrittenMark,
      ⟨⟨"./out/gen/e.x/draft.hpp"⟩, ⟨"out/gen/e.x/draft.hpp"⟩, headerWith "f"⟩,
      declarationWith "f"⟩,
   ⟨localProject, sharedPlace, ⟨⟨"./a.hpp"⟩, ⟨"a.hpp"⟩, headerWith "e"⟩, declarationWith "e"⟩]

/-- All these settings are accepted, and no ignore file is written. -/
theorem accepted_outdatedRuns : ∀ run ∈ outdatedRuns,
    ({ output := run.output } : Settings).fault? = none ∧
      ((∀ header ∈ run.sample.headers, '\n' ∉ header.relativePath.text.toList) ∧
        ∀ text ∈ [run.output.dir.text, run.output.includeDir, run.output.headerExtension,
          run.output.sourceExtension], '\n' ∉ text.toList) ∧
      ∀ needed ∈ outputPaths snakeCase run.output.toLayout run.sample.analysis.declarations,
        needed.1.fileName? ∉ [some ".ignore", some ".gitignore", some "exclude"] := by
  decide +kernel

/-- All runs go well, and so do the next searches. -/
theorem outcome_outdatedRuns : ∀ run ∈ outdatedRuns,
    let tree := (run.sample.outcome run.output).tree
    let converters := convertersFor snakeCase run.output run.header.relativePath run.declaration
    (run.sample.outcome run.output).failure = none ∧
      (∀ header ∈ run.sample.headers,
        ∀ needed ∈ outputPaths snakeCase run.output.toLayout run.sample.analysis.declarations,
          tree.locate header.path = tree.locate (run.output.dir.join needed.1) →
          holdsSome {} header.content = false) ∧
      run.sample.start.Legible tree ∧ run.sample.start.Finds tree run.header ∧
      run.declaration ∈ (build {} run.header.content).declarations ∧
      tree.find? (run.output.dir.join converters.headerPath) ≠ some (.text converters.header) := by
  decide +kernel

theorem leavesOutdated_of_mem {run : OutdatedRun} (hrun : run ∈ outdatedRuns) :
    LeavesOutdated (.standard none) run.sample.start.path { output := run.output } run.sample.headers
      run.sample.tree := by
  obtain ⟨hvalid, hfeeds, hnames⟩ := accepted_outdatedRuns run hrun
  obtain ⟨hok, hoverlap, hlegible, hheader, hdeclaration, hstale⟩ := outcome_outdatedRuns run hrun
  have htree : (runGenerate (.standard none) run.sample.start.path { output := run.output } {}
      run.sample.tree).tree = (run.sample.outcome run.output).tree := run.sample.tree_run run.output
  obtain ⟨later, hlater, hfinds⟩ := WalkStart.exists_findHeaders hlegible
  have hlater : findHeaders (Toolkit.standard none).walk (run.sample.outcome run.output).tree
      run.sample.start.path ({ output := run.output } : Settings).scan none = .ok later := hlater
  refine ⟨hvalid, (run.sample.failure_run run.output).trans hok, run.sample.findHeaders_tree, hfeeds,
    ?_, ?_, ?_⟩
  · rw [run.sample.analyze_headers]
    exact hnames
  · rw [run.sample.analyze_headers, htree]
    exact hoverlap
  · rw [htree]
    refine ⟨⟨later, hlater⟩, fun hupToDate => hstale ?_⟩
    have hfresh := find?_of_runValidate hlater hupToDate run.header (hfinds _ hheader)
      run.declaration hdeclaration
    rw [FilePair.files, List.forall_mem_cons] at hfresh
    exact hfresh.1

theorem outdated_after_generate :
    LeavesOutdated (.standard none) ⟨"."⟩ { output := nestedRepository } localProject.headers
        localProject.tree ∧
      LeavesOutdated (.standard none) ⟨"."⟩ { output := overwrittenMark } linkedProject.headers
        linkedProject.tree ∧
      LeavesOutdated (.standard none) ⟨"."⟩ { output := sharedPlace } localProject.headers
        localProject.tree := by
  have hall : ∀ run ∈ outdatedRuns, LeavesOutdated (.standard none) run.sample.start.path
      { output := run.output } run.sample.headers run.sample.tree :=
    fun run => leavesOutdated_of_mem
  rw [outdatedRuns, List.forall_mem_cons, List.forall_mem_cons, List.forall_mem_singleton] at hall
  exact hall

end EnumConverter
