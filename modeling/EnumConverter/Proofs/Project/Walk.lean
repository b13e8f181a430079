import EnumConverter.Project.Walk
import EnumConverter.Proofs.Path.Order
import EnumConverter.Proofs.Project.Relative

namespace EnumConverter

open Text FileTree

/-- Rules by which a walk leaves files out. Those for version control count only if they are
respected. -/
structure IgnoreRules where
  /-- Whether a file is left out, known by its names behind the start of the walk. -/
  excludes : FileTree → WalkStart → Bool → List String → Prop
  /-- The locations of ignore files. -/
  files : FileTree → Bool → Location → Prop
  /-- The other locations at which something can make a difference to the rules. -/
  marks : FileTree → Bool → Location → Prop

/-- The file at a location. -/
def FileTree.file? (tree : FileTree) (place : Location) : Option Item :=
  (tree.item? place).filter (·.isFile)

/-- A walk reports the files that the rules do not leave out, each of them once, in some order. -/
structure Walk.Follows (walk : Walk) (rules : IgnoreRules) : Prop where
  once : ∀ {tree : FileTree} {start : Path} {respectGitignore : Bool} {paths : List Path},
    tree.Grounded → walk tree start respectGitignore = paths.map .ok →
    (paths.filter tree.isFile).Nodup
  reports : ∀ {tree : FileTree} {root : Location} {start path : Path} {respectGitignore : Bool}
    {paths : List Path}, tree.Grounded → tree.locate start = .ok root →
    walk tree start respectGitignore = paths.map .ok → tree.isFile path = true →
    (path ∈ paths ↔ ∃ names, path = start.behind names ∧ tree.locate path = .ok (root ++ names) ∧
      ¬ rules.excludes tree ⟨root, start⟩ respectGitignore names)
  /-- The rules say the same of a file as long as the ignore files are the same and nothing changes at
  the other locations that matter. -/
  stable : ∀ {tree after : FileTree} {start : WalkStart} {respectGitignore : Bool}
    {names : List String}, after.current = tree.current →
    (∀ place, rules.files tree respectGitignore place → after.file? place = tree.file? place) →
    (∀ place, rules.marks tree respectGitignore place → after.item? place = tree.item? place) →
    tree.hasFile (start.place ++ names) = true → after.hasFile (start.place ++ names) = true →
    (rules.excludes after start respectGitignore names ↔
      rules.excludes tree start respectGitignore names)

variable {tree : FileTree} {root : Location} {names : List String}

theorem below?_eq_some_iff {place : Location} :
    below? root place = some names ↔ place = root ++ names := by
  unfold below?
  split
  · rename_i h
    obtain ⟨rest, rfl⟩ := List.isPrefixOf_iff_prefix.1 h
    simp
  · rename_i h
    refine iff_of_false (by simp) ?_
    rintro rfl
    exact h (List.isPrefixOf_iff_prefix.2 (List.prefix_append root names))

namespace FileTree

theorem isSome_of_hasFile {place : Location} (h : tree.hasFile place = true) :
    (tree.item? place).isSome = true := by
  obtain ⟨item, hitem, -⟩ := (Option.any_eq_true ..).1 h
  exact Option.isSome_of_eq_some hitem

/-- The files below a location, before they are sorted. -/
def filesIn (tree : FileTree) (root : Location) : List (List String) :=
  (((tree.items.map (·.1)).filter tree.hasFile).filterMap (below? root)).eraseDups

theorem filesBelow_eq (tree : FileTree) (root : Location) :
    tree.filesBelow root = (tree.filesIn root).mergeSort namesNotAfter := rfl

theorem mem_filesIn : names ∈ tree.filesIn root ↔ tree.hasFile (root ++ names) = true := by
  rw [filesIn, List.mem_eraseDups, List.mem_filterMap]
  simp only [below?_eq_some_iff, List.mem_filter]
  constructor
  · rintro ⟨_, ⟨-, hfile⟩, rfl⟩
    exact hfile
  · intro hfile
    refine ⟨_, ⟨?_, hfile⟩, rfl⟩
    obtain ⟨item, hitem, hisFile⟩ := (Option.any_eq_true ..).1 hfile
    have hplace : root ++ names ≠ [] := by
      intro hnil
      rw [hnil, item?_root] at hitem
      obtain rfl := Option.some.inj hitem
      cases hisFile
    exact List.mem_map_of_mem (mem_items_of_item? hplace hitem)

theorem mem_filesBelow : names ∈ tree.filesBelow root ↔ tree.hasFile (root ++ names) = true := by
  rw [filesBelow_eq, List.mem_mergeSort, mem_filesIn]

theorem nodup_filesBelow (tree : FileTree) (root : Location) : (tree.filesBelow root).Nodup := by
  rw [filesBelow_eq, (List.mergeSort_perm ..).nodup_iff]
  exact nodup_eraseDups _

/-- A path that leads to a file leads to where it says that it does. -/
theorem locate_of_isFile {path : Path} (h : tree.isFile path = true) :
    ∃ place, tree.locate path = .ok place ∧ tree.hasFile place = true := by
  obtain ⟨item, hitem, hfile⟩ := (Option.any_eq_true ..).1 h
  obtain ⟨place, hplace, hthere⟩ := locate_of_find? hitem
  refine ⟨place, hplace, ?_⟩
  rw [hasFile, hthere]
  exact hfile

theorem isFile_of_locate {path : Path} {place : Location} (h : tree.locate path = .ok place) :
    tree.isFile path = tree.hasFile place := by
  rw [isFile, find?_of_locate h, hasFile]

theorem text_ne_empty_of_locate {path : Path} {place : Location} (h : tree.locate path = .ok place) :
    path.text ≠ "" := by
  intro hempty
  have hfault := (locate_eq_ok_iff.1 h).1
  simp [Path.fault?, Path.hasNull, hempty] at hfault

/-- Files behind a directory have different paths. -/
theorem Grounded.behind_inj (h : tree.Grounded) {start : Path} (hstart : start.text ≠ "")
    {first second : List String} (hfirst : tree.hasFile (root ++ first) = true)
    (hsecond : tree.hasFile (root ++ second) = true)
    (hsame : start.behind first = start.behind second) : first = second := by
  have hnames := h.isName (isSome_of_hasFile hfirst)
  have hothers := h.isName (isSome_of_hasFile hsecond)
  refine Path.names_eq_of_same hnames hothers ?_
  rw [← Path.relativeTo_behind hnames hstart, hsame, Path.relativeTo_behind hothers hstart]
  simp [Path.same]

end FileTree

end EnumConverter
