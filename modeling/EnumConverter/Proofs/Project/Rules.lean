import EnumConverter.Proofs.Project.Edits
import EnumConverter.Proofs.Project.Walk

namespace EnumConverter

namespace FileTree

variable {tree after : FileTree} {directory place : Location} {path : Path} {parts : List String}

/-- The locations that a path comes by. -/
def trail (tree : FileTree) (path : Path) : List Location :=
  path.parts.scanl descend (tree.origin path)

/-- One part of a path leads to the same location if the same is there before and behind it. -/
theorem step_eq {part : String} (hbefore : after.item? place = tree.item? place)
    (hbehind : after.item? (descend place part) = tree.item? (descend place part)) :
    after.step place part = tree.step place part := by
  unfold step
  rw [hbefore]
  split
  · rfl
  split
  · rfl
  rename_i hmoves
  split
  · rfl
  rename_i hnotUp
  rw [descend, if_neg hmoves, if_neg hnotUp] at hbehind
  rw [hbehind]

theorem foldlM_step_eq (h : ∀ other ∈ parts.scanl descend place, after.item? other = tree.item? other) :
    parts.foldlM after.step place = parts.foldlM tree.step place := by
  induction parts generalizing place with
  | nil => rfl
  | cons part parts ih =>
    rw [List.scanl_cons, List.forall_mem_cons] at h
    have hne : parts.scanl descend (descend place part) ≠ [] := List.scanl_ne_nil
    have hbehind := List.head_mem hne
    rw [List.head_scanl] at hbehind
    rw [List.foldlM_cons, List.foldlM_cons, step_eq h.1 (h.2 _ hbehind)]
    cases hstep : tree.step place part with
    | error fault => rfl
    | ok next =>
      obtain rfl := descend_of_step hstep
      exact ih h.2

/-- A path leads to the same item if nothing has changed at the locations that it comes by. -/
theorem find?_eq_of_trail (hcurrent : after.current = tree.current)
    (h : ∀ place ∈ tree.trail path, after.item? place = tree.item? place) :
    after.find? path = tree.find? path := by
  have hlocate : after.locate path = tree.locate path := by
    unfold locate
    rw [origin_eq hcurrent, foldlM_step_eq h]
  unfold find?
  rw [hlocate]
  cases hplace : tree.locate path with
  | error fault => rfl
  | ok place =>
    have hend : place ∈ tree.trail path := by
      rw [← named_of_locate hplace, named, trail, ← List.getLast_scanl List.scanl_ne_nil]
      exact List.getLast_mem _
    exact h place hend

/-- What the mark of a working tree makes the rules look up. -/
inductive LooksUp (tree : FileTree) (directory : Location) : Path → Prop
  | link {mark : Item} {own : Path} (hmark : tree.item? (directory ++ [".git"]) = some mark)
      (hfile : mark ≠ .directory)
      (hown : ownDirectory (pathTo (directory ++ [".git"])) mark = .ok (some own)) :
      LooksUp tree directory (own.join ⟨"commondir"⟩)
  | shared {mark : Item} {shared : Path} (hmark : tree.item? (directory ++ [".git"]) = some mark)
      (hfile : mark ≠ .directory)
      (hshared : tree.sharedDirectory (pathTo (directory ++ [".git"])) mark = .ok (some shared)) :
      LooksUp tree directory (shared.join ⟨"info/exclude"⟩)

/-- Where ignore files are. Only the first kind matters if version control is not respected. -/
inductive IsIgnoreFile (respectGitignore : Bool) : Location → Prop
  | general (directory : Location) : IsIgnoreFile respectGitignore (directory ++ [".ignore"])
  | versioned (hrespect : respectGitignore = true) (directory : Location) :
    IsIgnoreFile respectGitignore (directory ++ [".gitignore"])
  | excluded (hrespect : respectGitignore = true) (directory : Location) :
    IsIgnoreFile respectGitignore (directory ++ [".git"] ++ ["info", "exclude"])

/-- Where it makes a difference to the rules of version control what is there: the marks of
repositories, and what the paths come by that lead to ignore files elsewhere. -/
inductive IsMark (everywhere : Option Path) (tree : FileTree) : Location → Prop
  | repository {name : String} (hname : name ∈ [".git", ".jj"]) (directory : Location) :
    IsMark everywhere tree (directory ++ [name])
  | linked {path : Path} {place : Location} (directory : Location)
    (hpath : tree.LooksUp directory path) (hplace : place ∈ tree.trail path) :
    IsMark everywhere tree place
  | everywhere {path : Path} {place : Location} (hpath : path ∈ everywhere)
    (hplace : place ∈ tree.trail path) : IsMark everywhere tree place

theorem sharedDirectory_eq {mark : Item} (h : ∀ own, ownDirectory path mark = .ok (some own) →
      after.find? (own.join ⟨"commondir"⟩) = tree.find? (own.join ⟨"commondir"⟩)) :
    after.sharedDirectory path mark = tree.sharedDirectory path mark := by
  unfold sharedDirectory
  cases hown : ownDirectory path mark with
  | error fault => rfl
  | ok own? =>
    cases own? with
    | none => rfl
    | some own =>
      simp only [bind, Except.bind, h own hown]

/-- A directory in the place of an ignore file says as much as nothing. -/
theorem rulesIn_eq (h : after.file? place = tree.file? place) (path : Path) :
    rulesIn ((after.item? place).map fun item => (path, item)) =
      rulesIn ((tree.item? place).map fun item => (path, item)) := by
  have hfile : ∀ tree : FileTree, rulesIn ((tree.item? place).map fun item => (path, item)) =
      rulesIn ((tree.file? place).map fun item => (path, item)) := by
    intro tree
    unfold file?
    rcases tree.item? place with _ | _ | _ | _ <;> rfl
  rw [hfile, hfile, h]

variable {everywhere : Option Path} {respectGitignore : Bool}

section Sources

variable (hfiles : ∀ place, IsIgnoreFile respectGitignore place → after.file? place = tree.file? place)
include hfiles

theorem general_eq (directory : Location) :
    (after.rulesOf directory).general = (tree.rulesOf directory).general :=
  rulesIn_eq (hfiles _ (.general directory)) _

variable (hrespect : respectGitignore = true) (hcurrent : after.current = tree.current)
  (hmarks : ∀ place, IsMark everywhere tree place → after.item? place = tree.item? place)
include hrespect hcurrent hmarks

theorem excluded_eq (directory : Location) :
    (after.rulesOf directory).excluded = (tree.rulesOf directory).excluded := by
  have hmark := hmarks _ (.repository (show ".git" ∈ [".git", ".jj"] by simp) directory)
  have hlookup : ∀ path, tree.LooksUp directory path → after.find? path = tree.find? path :=
    fun path hpath => find?_eq_of_trail hcurrent
      fun place hplace => hmarks place (.linked directory hpath hplace)
  by_cases hdirectory : tree.item? (directory ++ [".git"]) = some .directory
  · rw [hdirectory] at hmark
    simp only [rulesOf, excludeFile, hmark, hdirectory]
    exact rulesIn_eq (hfiles _ (.excluded hrespect directory)) _
  have hexcluded : after.excludeFile directory = tree.excludeFile directory := by
    unfold excludeFile
    dsimp only
    rw [hmark]
    split
    · rfl
    · contradiction
    · rename_i mark hfile hthere
      rw [sharedDirectory_eq fun own hown => hlookup _ (.link hthere hfile hown)]
      cases hfound : tree.sharedDirectory (pathTo (directory ++ [".git"])) mark with
      | error fault => rfl
      | ok shared? =>
        cases shared? with
        | none => rfl
        | some shared => simp only [bind, Except.bind, hlookup _ (.shared hthere hfile hfound)]
  simp only [rulesOf, hexcluded]

theorem rulesOf_eq (directory : Location) : after.rulesOf directory = tree.rulesOf directory := by
  have hrepository : after.isRepository directory = tree.isRepository directory := by
    have hitem := fun {name : String} (hname : name ∈ [".git", ".jj"]) =>
      hmarks _ (.repository hname directory)
    simp only [isRepository, List.any_cons, List.any_nil, hitem (show ".git" ∈ [".git", ".jj"] by simp),
      hitem (show ".jj" ∈ [".git", ".jj"] by simp)]
  have hversioned : (after.rulesOf directory).versioned = (tree.rulesOf directory).versioned :=
    rulesIn_eq (hfiles _ (.versioned hrespect directory)) _
  calc after.rulesOf directory
      = ⟨(after.rulesOf directory).general, (after.rulesOf directory).versioned,
          (after.rulesOf directory).excluded, after.isRepository directory⟩ := rfl
    _ = ⟨(tree.rulesOf directory).general, (tree.rulesOf directory).versioned,
          (tree.rulesOf directory).excluded, tree.isRepository directory⟩ := by
        rw [general_eq hfiles, hversioned, excluded_eq hfiles hrespect hcurrent hmarks, hrepository]
    _ = tree.rulesOf directory := rfl

omit hfiles hrespect in
/-- The rules for all repositories say the same. -/
theorem everywhere_eq :
    (after.ruleBook everywhere).everywhere = (tree.ruleBook everywhere).everywhere := by
  unfold ruleBook
  cases everywhere with
  | none => rfl
  | some path =>
    have hfind := find?_eq_of_trail hcurrent
      fun place hplace => hmarks place (.everywhere rfl hplace)
    simp only [Option.bind_some, hfind]

end Sources

/-- Whether something in a directory makes a difference to it. -/
def hasRules (tree : FileTree) (directory : Location) : Bool :=
  ruleNames.any fun name => (tree.item? (directory ++ [name])).isSome

theorem hasRules_eq (tree : FileTree) (directory : Location) :
    tree.hasRules directory = ((tree.ignoreFile? directory ".ignore").isSome ||
      (tree.ignoreFile? directory ".gitignore").isSome || tree.isRepository directory) := by
  simp [hasRules, ruleNames, ignoreFile?, isRepository, Bool.or_assoc]

/-- A directory with nothing that makes a difference has no rules. -/
theorem rulesOf_of_not_hasRules (h : tree.hasRules directory = false) : tree.rulesOf directory = {} := by
  rw [hasRules_eq, Bool.or_eq_false_iff, Bool.or_eq_false_iff, Option.isSome_eq_false_iff,
    Option.isSome_eq_false_iff, Option.isNone_iff_eq_none, Option.isNone_iff_eq_none] at h
  obtain ⟨⟨hgeneral, hversioned⟩, hrepository⟩ := h
  have hmark : tree.item? (directory ++ [".git"]) = none := by
    simpa [isRepository] using (List.any_eq_false.1 hrepository) ".git" (by simp)
  have hexcluded : tree.excludeFile directory = .ok none := by
    simp only [excludeFile, hmark]
    rfl
  simp [rulesOf, hgeneral, hversioned, hexcluded, hrepository, rulesIn]

theorem lookup_map_pair {α β : Type} [BEq α] [LawfulBEq α] (value : α → β) (keys : List α) (key : α) :
    (keys.map fun key => (key, value key)).lookup key =
      if keys.contains key then some (value key) else none := by
  induction keys with
  | nil => rfl
  | cons first rest ih =>
    rw [List.map_cons, List.lookup_cons, List.contains_cons, ih]
    by_cases hfirst : key = first
    · simp [hfirst]
    · rw [beq_eq_false_iff_ne.2 hfirst, Bool.false_or]

theorem lookup_ruleBook (tree : FileTree) (everywhere : Option Path) (directory : Location) :
    (tree.ruleBook everywhere).directories.lookup directory =
      if tree.hasRules directory then some (tree.rulesOf directory) else none := by
  rw [ruleBook]
  dsimp only
  rw [lookup_map_pair]
  refine if_congr ?_ rfl rfl
  rw [List.contains_iff_mem, List.mem_eraseDups, List.mem_filterMap, hasRules, List.any_eq_true]
  constructor
  · rintro ⟨⟨place, item⟩, hentry, hplace⟩
    dsimp only at hplace
    split at hplace
    · rename_i hname
      obtain rfl := Option.some.inj hplace
      obtain ⟨name, hlast, hrule⟩ := (Option.any_eq_true ..).1 hname
      obtain ⟨front, rfl⟩ := List.getLast?_eq_some_iff.1 hlast
      refine ⟨name, List.contains_iff_mem.1 hrule, ?_⟩
      rw [List.dropLast_concat]
      exact isSome_item?_of_mem hentry
    · cases hplace
  · rintro ⟨name, hname, hthere⟩
    obtain ⟨item, hitem⟩ := Option.isSome_iff_exists.1 hthere
    refine ⟨(directory ++ [name], item), mem_items_of_item? (by simp) hitem, ?_⟩
    simpa using hname

/-- A directory for which no rules are found has none. -/
theorem getD_lookup_ruleBook (tree : FileTree) (everywhere : Option Path) (directory : Location) :
    ((tree.ruleBook everywhere).directories.lookup directory).getD {} = tree.rulesOf directory := by
  rw [lookup_ruleBook]
  split
  · rfl
  · rename_i hnone
    rw [rulesOf_of_not_hasRules (Bool.not_eq_true _ ▸ hnone), Option.getD_none]

end FileTree

namespace WalkStart

open FileTree

variable {tree after : FileTree} {everywhere : Option Path} {respectGitignore : Bool}

theorem levels_eq (start : WalkStart) (tree : FileTree) (everywhere : Option Path)
    (names : List String) : start.levels (tree.ruleBook everywhere) names =
      (around (start.place ++ names)).map fun directory =>
        (tree.rulesOf directory, bytesOf (start.seenPath names directory)) := by
  simp only [levels, getD_lookup_ruleBook]

/-- If version control is not respected only the rules that always count are asked. -/
theorem isIgnored_false (start : WalkStart) (tree : FileTree) (everywhere : Option Path)
    (names : List String) (isDirectory : Bool) :
    start.isIgnored (tree.ruleBook everywhere) false names isDirectory =
      decide ((around (start.place ++ names)).findSome? (fun directory =>
        (tree.rulesOf directory).general.verdict? (bytesOf (start.seenPath names directory))
          isDirectory) = some .ignore) := by
  have hrest : ∀ verdict : Option Verdict, (verdict <|> none <|> none <|> none) = verdict := by
    intro verdict
    cases verdict with
    | none => rfl
    | some verdict => rfl
  simp only [isIgnored, levels_eq, Bool.false_and, Bool.false_eq_true, if_false, List.findSome?_nil,
    hrest, List.findSome?_map, Function.comp_def]

/-- The rules ignore the same if the ignore files are the same, and so is whatever makes a difference to
version control if that is respected. -/
theorem isIgnored_eq (start : WalkStart) (hcurrent : after.current = tree.current)
    (hfiles : ∀ place, IsIgnoreFile respectGitignore place → after.file? place = tree.file? place)
    (hmarks : respectGitignore = true → ∀ place, IsMark everywhere tree place →
      after.item? place = tree.item? place) (names : List String) (isDirectory : Bool) :
    start.isIgnored (after.ruleBook everywhere) respectGitignore names isDirectory =
      start.isIgnored (tree.ruleBook everywhere) respectGitignore names isDirectory := by
  cases hrespect : respectGitignore with
  | false =>
    rw [isIgnored_false, isIgnored_false]
    simp only [general_eq hfiles]
  | true =>
    have hmarks := hmarks hrespect
    have hlevels : start.levels (after.ruleBook everywhere) names =
        start.levels (tree.ruleBook everywhere) names := by
      simp only [levels_eq, rulesOf_eq hfiles hrespect hcurrent hmarks]
    have hseen : (after.ruleBook everywhere).current = (tree.ruleBook everywhere).current :=
      congrArg pathTo hcurrent
    simp only [isIgnored, hlevels, everywhere_eq hcurrent hmarks, hseen]

end WalkStart

open FileTree

/-- The rules of ignore files. A lone hyphen as the start leaves out everything. -/
def ignoreRules (everywhere : Option Path) : IgnoreRules where
  excludes tree start respectGitignore names :=
    start.path.isStandardInput = true ∨
      start.reaches (tree.ruleBook everywhere) respectGitignore names false = false
  files _ := IsIgnoreFile
  marks tree respectGitignore place := respectGitignore = true ∧ IsMark everywhere tree place

section IgnoreWalk

variable {everywhere : Option Path} {tree : FileTree} {root : Location} {start : Path}
  {respectGitignore : Bool} {paths : List Path}

/-- A walk that goes well comes across the files that the rules do not leave out. -/
theorem exists_names_of_ignoreWalk (hroot : tree.locate start = .ok root)
    (h : ignoreWalk everywhere tree start respectGitignore = paths.map .ok) :
    ∃ files : List (List String), paths = files.map start.behind ∧ files.Nodup ∧
      ∀ names, names ∈ files ↔ tree.hasFile (root ++ names) = true ∧
        ¬ (ignoreRules everywhere).excludes tree ⟨root, start⟩ respectGitignore names := by
  unfold ignoreWalk at h
  cases hinput : start.isStandardInput with
  | true =>
    rw [hinput, if_pos rfl] at h
    rw [List.map_eq_nil_iff.1 h.symm]
    exact ⟨[], rfl, .nil, by simp [ignoreRules, hinput]⟩
  | false =>
    rw [hinput, if_neg (by decide), hroot] at h
    dsimp only at h
    unfold WalkStart.entries at h
    split at h
    · obtain ⟨path, rest, -, hfault, -⟩ := List.map_eq_cons_iff.1 h.symm
      cases hfault
    split at h
    · obtain ⟨path, rest, -, hfault, -⟩ := List.map_eq_cons_iff.1 h.symm
      cases hfault
    refine ⟨(WalkStart.mk root start).files tree (tree.ruleBook everywhere) respectGitignore, ?_,
      (nodup_filesBelow tree root).filter _, fun names => ?_⟩
    · refine (List.map_inj_right fun _ _ => Except.ok.inj).1 (h.symm.trans ?_)
      rw [List.map_map]
      rfl
    · rw [WalkStart.files, List.mem_filter, mem_filesBelow]
      simp [ignoreRules, hinput]

end IgnoreWalk

/-- The walk goes by the rules of ignore files. -/
theorem follows_ignoreWalk (everywhere : Option Path) :
    (ignoreWalk everywhere).Follows (ignoreRules everywhere) where
  once := by
    intro tree start respectGitignore paths htree h
    cases hroot : tree.locate start with
    | error fault =>
      unfold ignoreWalk at h
      rw [hroot, ite_self] at h
      rw [List.map_eq_nil_iff.1 h.symm]
      exact .nil
    | ok root =>
      obtain ⟨files, rfl, hnodup, hfiles⟩ := exists_names_of_ignoreWalk hroot h
      refine List.Pairwise.filter _ (List.pairwise_map.2 (hnodup.imp_of_mem ?_))
      intro first second hfirst hsecond hne hsame
      exact hne (htree.behind_inj (text_ne_empty_of_locate hroot) ((hfiles first).1 hfirst).1
        ((hfiles second).1 hsecond).1 hsame)
  reports := by
    intro tree root start path respectGitignore paths htree hroot h hfile
    obtain ⟨files, rfl, -, hfiles⟩ := exists_names_of_ignoreWalk hroot h
    rw [List.mem_map]
    constructor
    · rintro ⟨names, hnames, rfl⟩
      obtain ⟨hthere, hkept⟩ := (hfiles names).1 hnames
      obtain ⟨place, hplace, -⟩ := locate_of_isFile hfile
      exact ⟨names, rfl, htree.locate_behind hroot (isSome_of_hasFile hthere)
        (locate_eq_ok_iff.1 hplace).1, hkept⟩
    · rintro ⟨names, rfl, hplace, hkept⟩
      rw [isFile_of_locate hplace] at hfile
      exact ⟨names, (hfiles names).2 ⟨hfile, hkept⟩, rfl⟩
  stable := by
    intro tree after start respectGitignore names hcurrent hfiles hmarks _ _
    have hmarks : respectGitignore = true → ∀ place, IsMark everywhere tree place →
        after.item? place = tree.item? place :=
      fun hrespect place hplace => hmarks place ⟨hrespect, hplace⟩
    have hreaches : start.reaches (after.ruleBook everywhere) respectGitignore names false =
        start.reaches (tree.ruleBook everywhere) respectGitignore names false := by
      simp only [WalkStart.reaches, start.isIgnored_eq hcurrent hfiles hmarks]
    simp only [ignoreRules, hreaches]

end EnumConverter
