import EnumConverter.Proofs.Generate.Collision
import EnumConverter.Proofs.Inert.File
import EnumConverter.Proofs.Project.Follow
import Mathlib.Data.List.DropRight

namespace EnumConverter

open Text Emit

namespace Path

/-- Whether a path starts with a name and never goes up. -/
structure Descends (path : Path) : Prop where
  relative : path.isAbsolute = false
  named : path.parts.head? ≠ some "."
  notUp : ".." ∉ path.parts

/-- Paths that go down from one directory to one place are the same. -/
theorem Descends.same_of_locate {tree : FileTree} {base directory first second : Path}
    {place : Location} (hdirectory : directory.isAbsolute = false) (hfirst : first.Descends)
    (hsecond : second.Descends)
    (hfirstPlace : tree.locate (base.join (directory.join first)) = .ok place)
    (hsecondPlace : tree.locate (base.join (directory.join second)) = .ok place) :
    (directory.join first).same (directory.join second) = true := by
  have hsplit : ∀ path : Path, path.Descends →
      tree.locate (base.join (directory.join path)) = .ok place →
      ∃ middle, (base.lead ++ directory.lead).foldlM tree.step (tree.origin base) = .ok middle ∧
        place = middle ++ path.names := by
    intro path hpath hplace
    have hfollow := (FileTree.locate_eq_ok_iff.1 hplace).2
    have hrelative : (directory.join path).isAbsolute = false :=
      (isAbsolute_join directory hpath.relative).trans hdirectory
    rw [FileTree.origin, isAbsolute_join base hrelative, parts_join base hrelative,
      parts_join directory hpath.relative, ← List.append_assoc, List.foldlM_append] at hfollow
    obtain ⟨middle, hmiddle, hrest⟩ := ok_of_bind_eq_ok hfollow
    exact ⟨middle, hmiddle, FileTree.place_of_foldlM_step hpath.notUp hrest⟩
  obtain ⟨middle, hmiddle, hnames⟩ := hsplit first hfirst hfirstPlace
  obtain ⟨other, hother, hothers⟩ := hsplit second hsecond hsecondPlace
  obtain rfl : middle = other := Except.ok.inj (hmiddle.symm.trans hother)
  exact same_join directory hfirst.relative hsecond.relative hfirst.named hsecond.named
    (List.append_cancel_left (hnames.symm.trans hothers))

end Path

theorem head?_trimSlashes (text : String) : (trimSlashes text).toList.head? ≠ some '/' := by
  unfold trimSlashes
  rw [String.toList_ofList]
  intro hhead
  obtain ⟨rest, hrest⟩ := List.head?_eq_some_iff.1 hhead
  have hprefix := List.rdropWhile_prefix (fun c => decide (c = '/')) (text.toList.dropWhile (· = '/'))
  rw [List.rdropWhile, hrest] at hprefix
  have hfirst := List.head?_dropWhile_not (fun c => decide (c = '/')) text.toList
  obtain ⟨more, hmore⟩ := hprefix
  rw [← hmore] at hfirst
  simp at hfirst

/-- The directory of generated files is relative. -/
theorem isAbsolute_directory (layout : Layout) : (Path.mk layout.directory).isAbsolute = false :=
  decide_eq_false (head?_trimSlashes layout.includeDir)

namespace Declaration.Spelled

variable {snake : String → String} (hsnake : IsSnakeRule snake) {declaration : Declaration}
  (h : declaration.Spelled) (layout : Layout)
include hsnake h

theorem stem_ne_empty : layout.stem snake declaration ≠ "" := by
  have hshort : declaration.name ≠ "" := by
    intro hempty
    have hname := h.name
    rw [show declaration.path.name = "" from hempty] at hname
    cases hname
  have hname : declaration.name ∈ declaration.path.components := by
    simp [QualifiedPath.components, Declaration.name]
  have hqualified : declaration.path.joinedBy "_" ≠ "" := joined_ne_empty hname hshort
  unfold Layout.stem
  cases layout.naming with
  | short =>
    cases layout.fileCase with
    | preserve => exact hshort
    | snake => exact hsnake.ne_empty _ hshort
  | qualified =>
    cases layout.fileCase with
    | preserve => exact hqualified
    | snake => exact hsnake.ne_empty _ hqualified

/-- The name of a file is a path that goes down if the extension does. -/
theorem descends_fileName {extension : String} (hextension : ".." ∉ (Path.mk extension).parts) :
    (Path.mk (layout.fileName snake declaration extension)).Descends := by
  obtain ⟨c, rest, hstem⟩ :=
    List.exists_cons_of_ne_nil (mt String.toList_eq_nil_iff.1 (stem_ne_empty hsnake h layout))
  have hslash : '/' ∉ c :: rest :=
    hstem ▸ notMem_stem (by decide) (hsnake.keepsOut _ (by decide)) h.components_words layout
  have hdot : '.' ∉ c :: rest :=
    hstem ▸ notMem_stem (by decide) (hsnake.keepsOut _ (by decide)) h.components_words layout
  obtain ⟨piece, pieces, hpieces⟩ :=
    List.exists_cons_of_ne_nil (splitAt_ne_nil '/' extension.toList)
  have htext : (layout.fileName snake declaration extension).toList =
      (c :: rest ++ ['.']) ++ extension.toList := by
    simp [Layout.fileName, hstem]
  have hparts : (Path.mk (layout.fileName snake declaration extension)).parts =
      String.ofList (c :: rest ++ ['.'] ++ piece) :: pieces.map String.ofList := by
    rw [Path.parts, htext, splitAt_append_of_notMem (by simpa using hslash) hpieces, List.map_cons]
  rw [List.mem_cons, not_or] at hslash hdot
  refine ⟨?_, ?_, ?_⟩
  · simpa [Path.isAbsolute, htext] using Ne.symm hslash.1
  · rw [hparts]
    intro hhead
    have hlist := congrArg String.toList (Option.some.inj hhead)
    simp at hlist
  · rw [hparts, List.mem_cons, not_or]
    constructor
    · intro hup
      have hlist := congrArg String.toList hup
      simp only [String.toList_ofList] at hlist
      exact hdot.1 (List.cons.inj hlist).1
    · intro hmem
      refine hextension ?_
      rw [Path.parts, hpieces]
      exact List.mem_cons_of_mem _ hmem

end Declaration.Spelled

section Places

variable {snake : String → String} (hsnake : IsSnakeRule snake) {settings : OutputSettings}
  {declarations : List (Path × Declaration)}
  (hspelled : ∀ entry ∈ declarations, entry.2.Spelled)
  (hheader : ".." ∉ (Path.mk settings.headerExtension).parts)
  (hsource : ".." ∉ (Path.mk settings.sourceExtension).parts)
include hsnake hspelled hheader hsource

theorem path_outputFiles : ∀ file ∈ outputFiles snake settings declarations,
    ∃ name : Path, name.Descends ∧ file.path = (Path.mk settings.directory).join name := by
  intro file hfile
  obtain ⟨⟨path, declaration⟩, hentry, hpair⟩ := List.mem_flatMap.1 hfile
  have hdeclaration := hspelled _ hentry
  obtain rfl | hother := List.mem_cons.1 hpair
  · exact ⟨_, hdeclaration.descends_fileName hsnake settings.toLayout hheader, rfl⟩
  · obtain rfl := List.mem_singleton.1 hother
    exact ⟨_, hdeclaration.descends_fileName hsnake settings.toLayout hsource, rfl⟩

/-- Generated files of different paths go to different places. -/
theorem pairwise_locate_outputFiles {tree : FileTree}
    (hapart : (outputPaths snake settings.toLayout declarations).Pairwise Apart)
    (hlocated : ∀ file ∈ outputFiles snake settings declarations,
      ∃ place, tree.locate (settings.dir.join file.path) = .ok place) :
    (outputFiles snake settings declarations).Pairwise fun a b =>
      tree.locate (settings.dir.join a.path) ≠ tree.locate (settings.dir.join b.path) := by
  have hpaths : ((outputFiles snake settings declarations).map (·.path)).Pairwise
      fun a b => a.same b = false := by
    rw [map_path_outputFiles, List.pairwise_map]
    exact hapart
  rw [List.pairwise_map] at hpaths
  refine hpaths.imp_of_mem ?_
  intro a b ha hb hdiffer hplaces
  obtain ⟨first, hfirst, hfirstPath⟩ := path_outputFiles hsnake hspelled hheader hsource a ha
  obtain ⟨second, hsecond, hsecondPath⟩ := path_outputFiles hsnake hspelled hheader hsource b hb
  obtain ⟨place, hplace⟩ := hlocated b hb
  rw [hplace, hfirstPath] at hplaces
  rw [hsecondPath] at hplace
  have hsame := hfirst.same_of_locate (isAbsolute_directory settings.toLayout) hsecond hplaces hplace
  rw [← hfirstPath, ← hsecondPath, hdiffer] at hsame
  cases hsame

end Places

end EnumConverter
