import EnumConverter.Generate
import EnumConverter.Proofs.Build.Words
import EnumConverter.Emit.Registry

namespace EnumConverter

open Emit

/-- A path and the declaration that needs it. -/
abbrev NeededPath := Path × QualifiedPath

/-- Different paths are needed. -/
def Apart (a b : NeededPath) : Prop :=
  a.1.same b.1 = false

/-- Of the paths in order, `path` is the first that equals an earlier one. It is needed by `second`, and
the earlier one by `first`. -/
def FirstCollision (paths : List NeededPath) (path : Path) (first second : QualifiedPath) : Prop :=
  ∃ before earlier middle after,
    paths = before ++ (earlier, first) :: middle ++ (path, second) :: after ∧
      earlier.same path = true ∧ (before ++ (earlier, first) :: middle).Pairwise Apart

/-- Takes paths in order, up to one that is taken already. -/
def takePaths (owners : Owners) : List NeededPath → Except GenerateError Owners
  | [] => .ok owners
  | (path, declaration) :: rest => do
    let owners ← takePath owners declaration path
    takePaths owners rest

theorem takePaths_append (owners : Owners) (first second : List NeededPath) :
    takePaths owners (first ++ second) = (takePaths owners first >>= (takePaths · second)) := by
  induction first generalizing owners with
  | nil => rfl
  | cons needed first ih =>
    rw [List.cons_append, takePaths, takePaths]
    cases takePath owners needed.2 needed.1 with
    | error error => rfl
    | ok owners => exact ih owners

/-- After the paths in `earlier`, a path is taken unless it is one of them. -/
theorem takePath_reverse (earlier : List NeededPath) (path : Path) (declaration : QualifiedPath) :
    (∃ before same first middle, earlier = before ++ (same, first) :: middle ∧ same.same path = true ∧
      takePath earlier.reverse declaration path = .error (.collision path first declaration)) ∨
    (∀ other ∈ earlier, Apart other (path, declaration)) ∧
      takePath earlier.reverse declaration path = .ok (earlier ++ [(path, declaration)]).reverse := by
  unfold takePath
  cases hfind : earlier.reverse.find? (·.1.same path) with
  | some found =>
    obtain ⟨same, first⟩ := found
    have hmem : (same, first) ∈ earlier := List.mem_reverse.1 (List.mem_of_find?_eq_some hfind)
    obtain ⟨before, middle, hsplit⟩ := List.append_of_mem hmem
    have hsame : same.same path = true := by simpa using List.find?_some hfind
    exact .inl ⟨before, same, first, middle, hsplit, hsame, rfl⟩
  | none =>
    refine .inr ⟨?_, by simp⟩
    intro other hother
    simpa [Apart] using List.find?_eq_none.1 hfind other (List.mem_reverse.2 hother)

/-- Taking paths in order after those in `earlier` goes well or ends at the first collision. -/
theorem takePaths_reverse {earlier : List NeededPath} (hearlier : earlier.Pairwise Apart)
    (rest : List NeededPath) :
    (∃ owners, takePaths earlier.reverse rest = .ok owners) ∧ (earlier ++ rest).Pairwise Apart ∨
    ∃ path first second, takePaths earlier.reverse rest = .error (.collision path first second) ∧
      FirstCollision (earlier ++ rest) path first second := by
  induction rest generalizing earlier with
  | nil => exact .inl ⟨⟨_, rfl⟩, by simpa using hearlier⟩
  | cons needed rest ih =>
    obtain ⟨path, declaration⟩ := needed
    rw [takePaths]
    obtain ⟨before, same, first, middle, rfl, hsame, htake⟩ | ⟨hapart, htake⟩ :=
      takePath_reverse earlier path declaration
    · rw [htake]
      exact .inr ⟨path, first, declaration, rfl, ⟨before, same, middle, rest, rfl, hsame, hearlier⟩⟩
    · have hlonger : (earlier ++ [(path, declaration)]).Pairwise Apart := by
        rw [List.pairwise_append]
        exact ⟨hearlier, List.pairwise_singleton _ _, by simpa using hapart⟩
      rw [htake]
      have hrest := ih hlonger
      rwa [List.append_assoc, List.singleton_append] at hrest

/-- A list with a collision has equal paths. -/
theorem FirstCollision.not_pairwise {paths : List NeededPath} {path : Path}
    {first second : QualifiedPath} (h : FirstCollision paths path first second) :
    ¬ paths.Pairwise Apart := by
  obtain ⟨before, earlier, middle, after, rfl, hsame, -⟩ := h
  intro hpairwise
  have hapart := (List.pairwise_append.1 hpairwise).2.2 (earlier, first) (by simp)
    (path, second) (by simp)
  rw [Apart, hsame] at hapart
  cases hapart

section Files

variable (snake : String → String)

/-- The paths that declarations need, for each its header and then its source file. -/
def outputPaths (layout : Layout) (declarations : List (Path × Declaration)) : List NeededPath :=
  declarations.flatMap fun (_, declaration) =>
    [(layout.headerPath snake declaration, declaration.path),
     (layout.sourcePath snake declaration, declaration.path)]

/-- The files for a declaration of the header at `path`. They depend on nothing else but settings. -/
def convertersFor (settings : OutputSettings) (path : Path) (declaration : Declaration) : FilePair :=
  render snake settings.toLayout path.includeText declaration
    (declaration.requested.toList.map (written settings.indent declaration))

/-- The two files of a pair. -/
def Emit.FilePair.files (pair : FilePair) : List GeneratedFile :=
  [⟨pair.headerPath, pair.header⟩, ⟨pair.sourcePath, pair.source⟩]

/-- The files for declarations, in order. -/
def outputFiles (settings : OutputSettings) (declarations : List (Path × Declaration)) :
    List GeneratedFile :=
  declarations.flatMap fun (path, declaration) => (convertersFor snake settings path declaration).files

theorem map_path_outputFiles (settings : OutputSettings) (declarations : List (Path × Declaration)) :
    (outputFiles snake settings declarations).map (·.path) =
      (outputPaths snake settings.toLayout declarations).map (·.1) := by
  rw [outputFiles, outputPaths, List.map_flatMap, List.map_flatMap]
  rfl

theorem length_outputFiles (settings : OutputSettings) (declarations : List (Path × Declaration)) :
    (outputFiles snake settings declarations).length = 2 * declarations.length := by
  induction declarations with
  | nil => rfl
  | cons first rest ih =>
    rw [outputFiles, List.flatMap_cons, List.length_append, ← outputFiles, ih, List.length_cons]
    change 2 + _ = _
    omega

theorem generatePair_builtin (settings : OutputSettings) (owners : Owners) (path : Path)
    {declaration : Declaration} (hne : declaration.enumerators ≠ []) :
    generatePair snake settings .builtin owners path declaration =
      (takePaths owners (outputPaths snake settings.toLayout [(path, declaration)])).map
        (convertersFor snake settings path declaration, ·) := by
  rw [generatePair, builtin_emit settings.indent hne]
  change (do
    let owners ← takePath owners declaration.path (settings.headerPath snake declaration)
    let owners ← takePath owners declaration.path (settings.sourcePath snake declaration)
    return (convertersFor snake settings path declaration, owners)) = _
  rw [outputPaths, List.flatMap_singleton, takePaths]
  cases takePath owners declaration.path (settings.headerPath snake declaration) with
  | error error => rfl
  | ok owners =>
    change (takePath owners declaration.path (settings.sourcePath snake declaration) >>= fun owners =>
        return (convertersFor snake settings path declaration, owners)) =
      Except.map _ (takePath owners declaration.path (settings.sourcePath snake declaration) >>=
        (takePaths · []))
    cases takePath owners declaration.path (settings.sourcePath snake declaration) with
    | error error => rfl
    | ok owners => rfl

/-- Generating goes well exactly if all paths can be taken. -/
theorem files_generateFrom (settings : OutputSettings) (owners : Owners)
    {declarations : List (Path × Declaration)}
    (hne : ∀ entry ∈ declarations, entry.2.enumerators ≠ []) :
    (generateFrom snake settings .builtin owners declarations).files =
      (takePaths owners (outputPaths snake settings.toLayout declarations)).map
        fun _ => outputFiles snake settings declarations := by
  induction declarations generalizing owners with
  | nil => rfl
  | cons first rest ih =>
    obtain ⟨path, declaration⟩ := first
    have hpaths : outputPaths snake settings.toLayout ((path, declaration) :: rest) =
        outputPaths snake settings.toLayout [(path, declaration)] ++
          outputPaths snake settings.toLayout rest :=
      rfl
    rw [generateFrom,
      generatePair_builtin snake settings owners path (hne (path, declaration) (by simp)), hpaths,
      takePaths_append]
    cases takePaths owners (outputPaths snake settings.toLayout [(path, declaration)]) with
    | error error => rfl
    | ok owners =>
      have hrest := ih owners fun entry hentry => hne entry (by simp [hentry])
      change (generateFrom snake settings .builtin owners rest).files.map _ =
        (takePaths owners (outputPaths snake settings.toLayout rest)).map _
      rw [hrest]
      cases takePaths owners (outputPaths snake settings.toLayout rest) with
      | error error => rfl
      | ok owners => rfl

theorem declarations_generateFrom {settings : OutputSettings} {owners : Owners}
    {declarations : List (Path × Declaration)} {generated : List GeneratedFile}
    (h : (generateFrom snake settings .builtin owners declarations).files = .ok generated) :
    (generateFrom snake settings .builtin owners declarations).declarations = declarations.length := by
  induction declarations generalizing owners generated with
  | nil => rfl
  | cons first rest ih =>
    obtain ⟨path, declaration⟩ := first
    rw [generateFrom] at h ⊢
    cases hpair : generatePair snake settings .builtin owners path declaration with
    | error error =>
      rw [hpair] at h
      cases h
    | ok taken =>
      rw [hpair] at h
      obtain ⟨pair, owners⟩ := taken
      dsimp only at h ⊢
      cases hrest : (generateFrom snake settings .builtin owners rest).files with
      | error error =>
        rw [hrest] at h
        cases h
      | ok files => rw [ih hrest, List.length_cons]

end Files

theorem mem_declarations_analyze {settings : Settings} {files : List SourceFile}
    {entry : Path × Declaration} :
    entry ∈ (analyze settings files).declarations ↔ ∃ file ∈ files, entry.1 = file.relativePath ∧
      entry.2 ∈ (build settings.annotation.build file.content).declarations := by
  obtain ⟨path, declaration⟩ := entry
  constructor
  · intro h
    obtain ⟨analysis, hanalysis, hentry⟩ := List.mem_flatMap.1 h
    obtain ⟨_, hdeclaration, heq⟩ := List.mem_map.1 hentry
    obtain ⟨rfl, rfl⟩ := Prod.mk.inj heq
    obtain ⟨file, hfile, rfl⟩ := List.mem_map.1 (List.mem_mergeSort.1 hanalysis)
    exact ⟨file, hfile, rfl, hdeclaration⟩
  · rintro ⟨file, hfile, hpath, hdeclaration⟩
    obtain rfl : path = file.relativePath := hpath
    exact List.mem_flatMap.2 ⟨analyzeFile settings.annotation.build file,
      List.mem_mergeSort.2 (List.mem_map_of_mem hfile), List.mem_map_of_mem hdeclaration⟩

theorem files_generate_analyze (snake : String → String) (settings : Settings)
    (files : List SourceFile) :
    let declarations := (analyze settings files).declarations
    (generate snake settings.output .builtin (analyze settings files)).files =
      (takePaths [] (outputPaths snake settings.output.toLayout declarations)).map
        fun _ => outputFiles snake settings.output declarations := by
  intro declarations
  refine files_generateFrom snake settings.output [] fun entry hentry => ?_
  obtain ⟨file, -, -, hdeclaration⟩ := mem_declarations_analyze.1 hentry
  exact (build_spelled settings.annotation.build file.content entry.2 hdeclaration).inhabited

/-- What is generated are the files for all declarations, and their paths differ. -/
theorem outputFiles_of_generate {snake : String → String} {settings : Settings}
    {files : List SourceFile} {generated : List GeneratedFile}
    (h : (generate snake settings.output .builtin (analyze settings files)).files = .ok generated) :
    generated = outputFiles snake settings.output (analyze settings files).declarations ∧
      (outputPaths snake settings.output.toLayout (analyze settings files).declarations).Pairwise
        Apart := by
  rw [files_generate_analyze] at h
  obtain ⟨⟨owners, htake⟩, hapart⟩ | ⟨path, first, second, htake, -⟩ :=
    takePaths_reverse List.Pairwise.nil
      (outputPaths snake settings.output.toLayout (analyze settings files).declarations)
  · rw [show takePaths [] _ = _ from htake] at h
    exact ⟨(Except.ok.inj h).symm, hapart⟩
  · rw [show takePaths [] _ = _ from htake] at h
    cases h

/-- What comes out of generating the files for everything that headers hold. It is never an error of
an emitter: either all paths differ, or the first one that equals an earlier one is reported. -/
theorem generate_analyze (snake : String → String) (settings : Settings) (files : List SourceFile) :
    let declarations := (analyze settings files).declarations
    let paths := outputPaths snake settings.output.toLayout declarations
    let generation := generate snake settings.output .builtin (analyze settings files)
    (∀ path error, generation.files ≠ .error (.emit path error)) ∧
    ((∃ generated, generation.files = .ok generated) ↔ paths.Pairwise Apart) ∧
    (∀ generated, generation.files = .ok generated →
      generated.map (·.path) = paths.map (·.1) ∧ 2 * generation.declarations = generated.length ∧
      generated = declarations.flatMap fun (path, declaration) =>
        (convertersFor snake settings.output path declaration).files) ∧
    ∀ error, generation.files = .error error → ∃ path first second,
      error = .collision path first second ∧ FirstCollision paths path first second := by
  intro declarations paths generation
  have hfiles : generation.files =
      (takePaths [] paths).map fun _ => outputFiles snake settings.output declarations :=
    files_generate_analyze snake settings files
  obtain ⟨⟨owners, htake⟩, hapart⟩ | ⟨path, first, second, htake, hcollision⟩ :=
    takePaths_reverse List.Pairwise.nil paths
  · have hok : generation.files = .ok (outputFiles snake settings.output declarations) := by
      rw [hfiles]
      exact congrArg _ htake
    refine ⟨?_, ⟨fun _ => hapart, fun _ => ⟨_, hok⟩⟩, ?_, ?_⟩
    · intro path error
      simp [hok]
    · intro generated hgenerated
      obtain rfl : outputFiles snake settings.output declarations = generated := by
        rw [hok] at hgenerated
        exact Except.ok.inj hgenerated
      refine ⟨map_path_outputFiles snake settings.output declarations, ?_, rfl⟩
      rw [length_outputFiles, show generation.declarations = declarations.length from
        declarations_generateFrom snake hok]
    · intro error herror
      rw [hok] at herror
      cases herror
  · have hfailed : generation.files = .error (.collision path first second) := by
      rw [hfiles]
      exact congrArg _ htake
    refine ⟨?_, ⟨?_, fun hapart => absurd hapart hcollision.not_pairwise⟩, ?_, ?_⟩
    · intro path error
      simp [hfailed]
    · rintro ⟨generated, hgenerated⟩
      rw [hfailed] at hgenerated
      cases hgenerated
    · intro generated hgenerated
      rw [hfailed] at hgenerated
      cases hgenerated
    · intro error herror
      rw [hfailed] at herror
      obtain rfl := Except.error.inj herror
      exact ⟨path, first, second, rfl, hcollision⟩

end EnumConverter
