import EnumConverter.Project.Writer
import EnumConverter.Emit.Registry
import EnumConverter.Proofs.Project.Edits

namespace EnumConverter

variable {written : Location → String → Prop} {tree after : FileTree} {path : Path} {place : Location}

namespace FileTree

/-- A path whose last part may be new names an item in the directory that the parts before lead to. -/
theorem locateNew_eq_ok (h : tree.locateNew path = .ok place) :
    path.fault? = none ∧ ∃ directory name,
      path.parts.dropLast.foldlM tree.step (tree.origin path) = .ok directory ∧
      path.parts = path.parts.dropLast ++ [name] ∧ tree.item? directory = some .directory ∧
      (Path.staysPut name = false ∧ name ≠ ".." ∧ name.utf8ByteSize ≤ nameLimit) ∧
      place = directory ++ [name] := by
  unfold locateNew at h
  split at h
  · cases h
  rename_i hfault
  obtain ⟨directory, hfollow, hrest⟩ := ok_of_bind_eq_ok h
  split at hrest
  · cases hrest
  rename_i hdirectory
  split at hrest
  · cases hrest
  rename_i hname
  split at hrest
  · cases hrest
  rename_i hshort
  rw [Bool.or_eq_true, not_or, Bool.not_eq_true, decide_eq_true_eq] at hname
  have hparts : path.parts = path.parts.dropLast ++ [path.parts.getLast?.getD ""] := by
    rw [List.getLast?_eq_some_getLast path.parts_ne_nil, Option.getD_some,
      List.dropLast_concat_getLast]
  exact ⟨hfault, directory, _, hfollow, hparts, by simpa using hdirectory,
    ⟨hname.1, hname.2, Nat.not_lt.1 hshort⟩, (Except.ok.inj hrest).symm⟩

theorem opens_of_locateNew (h : tree.locateNew path = .ok place) : tree.Opens place := by
  obtain ⟨-, directory, name, -, hparts, hdirectory, ⟨hmoves, hnotUp, hshort⟩, rfl⟩ :=
    locateNew_eq_ok h
  have hpart : name ∈ path.parts := by
    rw [hparts]
    simp
  exact ⟨directory, name, rfl, hdirectory,
    ⟨hmoves, hnotUp, hshort, Path.slash_notMem_of_mem_parts hpart⟩⟩

/-- A path leads to the item that is put at it. -/
theorem locate_of_locateNew (h : tree.locateNew path = .ok place) (hkept : tree.KeptIn after)
    (hthere : (after.item? place).isSome = true) : after.locate path = .ok place := by
  obtain ⟨hfault, directory, name, hfollow, hparts, hdirectory, ⟨hmoves, hnotUp, hshort⟩, rfl⟩ :=
    locateNew_eq_ok h
  have hlast := step_name (hkept.directory hdirectory) hmoves hnotUp hshort hthere
  rw [locate_eq_ok_iff, origin_eq hkept.current]
  refine ⟨hfault, ?_⟩
  rw [hparts, List.foldlM_append, hkept.foldlM_step hfollow]
  change after.step directory name >>= pure = _
  rw [hlast]
  rfl

theorem edit_makeDirectory {made : FileTree} (h : tree.makeDirectory path = .ok made) :
    Edit written tree made := by
  obtain ⟨place, hplace, hmade⟩ := ok_of_bind_eq_ok h
  split at hmade
  · cases hmade
  rename_i hfree
  obtain rfl := Except.ok.inj hmade
  exact .make (opens_of_locateNew hplace) (by simpa using hfree)

theorem edits_makeChain (paths : List Path) : Edits written tree (tree.makeChain paths).1 := by
  fun_induction makeChain tree paths with
  | case1 => exact .refl
  | case2 => exact .refl
  | case3 path leading _ made hmade => exact .single (edit_makeDirectory hmade)
  | case4 path leading _ _ led hled ih =>
    rw [hled] at ih
    exact ih
  | case5 path leading _ _ led hled made hmade ih =>
    rw [hled] at ih
    exact ih.tail (edit_makeDirectory hmade)
  | case6 path leading _ _ led hled _ _ ih =>
    rw [hled] at ih
    exact ih
  | case7 => exact .refl

end FileTree

open FileTree

namespace Writer

theorem edits_prepare (tree : FileTree) (path : Path) : Edits written tree (prepare tree path).1 := by
  unfold prepare
  split
  · exact .refl
  rename_i directory _
  split
  · exact .refl
  have hmade : Edits written tree (tree.makeDirectories directory).1 := edits_makeChain _
  split
  all_goals
    rename_i hmake
    rw [hmake] at hmade
    exact hmade

/-- A file is at a place, and nothing else has got another text. -/
structure Stored (writer : Writer) (file : GeneratedFile) (tree after : FileTree)
    (place : Location) : Prop where
  located : after.locate (writer.target file) = .ok place
  content : after.item? place = some (.text file.content)
  edits : Edits (fun other content => other = place ∧ content = file.content) tree after

variable {writer : Writer} {file : GeneratedFile} {files : List GeneratedFile}

/-- A file whose text is there is up to date. -/
theorem status_of_find? (h : tree.find? (writer.target file) = some (.text file.content)) :
    writer.status tree file = .ok (.fresh (writer.target file)) := by
  unfold status
  dsimp only
  rw [h]
  simp

/-- Only a file whose text is there is up to date. -/
theorem find?_of_fresh {path : Path} (h : writer.status tree file = .ok (.fresh path)) :
    tree.find? (writer.target file) = some (.text file.content) := by
  unfold status at h
  dsimp only at h
  split at h
  · cases h
  · rename_i content htext
    split at h
    · rename_i hsame
      rw [htext, hsame]
    · cases h
  · cases h

theorem stored_of_store {result : WriteResult}
    (h : store tree (writer.target file) file.content = (after, .ok result)) :
    ∃ place, writer.Stored file tree after place := by
  unfold store at h
  split at h
  · cases h
  rename_i prepared hprepare
  split at h
  · cases h
  rename_i stored hwrite
  obtain ⟨rfl, -⟩ := Prod.mk.inj h
  obtain ⟨place, hplace, hput⟩ := ok_of_bind_eq_ok hwrite
  split at hput
  · cases hput
  rename_i hfile
  obtain rfl := Except.ok.inj hput
  have hopen := opens_of_locateNew hplace
  have hedit : Edit (fun other content => other = place ∧ content = file.content) prepared
      (prepared.set place (.text file.content)) := .put hopen hfile ⟨rfl, rfl⟩
  have hedits : Edits (fun other content => other = place ∧ content = file.content) tree
      (prepare tree (writer.target file)).1 := edits_prepare tree (writer.target file)
  rw [hprepare] at hedits
  have hcontent := item?_set_self prepared hopen.ne_nil (.text file.content)
  refine ⟨place, ?_, hcontent, hedits.tail hedit⟩
  exact locate_of_locateNew hplace hedit.keptIn (by rw [hcontent]; rfl)

theorem stored_of_write {result : WriteResult} (hdry : writer.dryRun = false)
    (h : writer.write tree file = (after, .ok result)) : ∃ place, writer.Stored file tree after place := by
  unfold write at h
  rw [hdry, if_neg (by decide)] at h
  split at h
  · cases h
  · rename_i path hfresh
    obtain ⟨rfl, -⟩ := Prod.mk.inj h
    obtain ⟨place, hplace, hitem⟩ := locate_of_find? (find?_of_fresh hfresh)
    exact ⟨place, hplace, hitem, .refl⟩
  · exact stored_of_store h

/-- All files are where their paths lead, and nothing else has got another text. -/
structure AllStored (writer : Writer) (files : List GeneratedFile) (tree after : FileTree) : Prop where
  located : ∀ file ∈ files, ∃ place, after.locate (writer.target file) = .ok place
  edits : Edits (fun place content => ∃ file ∈ files,
    after.locate (writer.target file) = .ok place ∧ content = file.content) tree after

theorem AllStored.cons {middle : FileTree} (hfirst : writer.Stored file tree middle place)
    (hrest : writer.AllStored files middle after) : writer.AllStored (file :: files) tree after where
  located other hother := by
    obtain rfl | hother := List.mem_cons.1 hother
    · exact ⟨place, hrest.edits.keptIn.locate hfirst.located⟩
    · exact hrest.located other hother
  edits := by
    have hlocated := hrest.edits.keptIn.locate hfirst.located
    refine (hfirst.edits.mono ?_).trans (hrest.edits.mono ?_)
    · rintro other content ⟨rfl, hcontent⟩
      exact ⟨file, by simp, hlocated, hcontent⟩
    · rintro other content ⟨written, hwritten, hplace⟩
      exact ⟨written, by simp [hwritten], hplace⟩

/-- A run that goes well writes the first file and then the others. -/
theorem write_of_writeAll_cons {results : List WriteResult}
    (h : writer.writeAll tree (file :: files) = (after, .ok results)) :
    ∃ middle result rest, writer.write tree file = (middle, .ok result) ∧
      writer.writeAll middle files = (after, .ok rest) ∧ results = result :: rest := by
  unfold writeAll at h
  split at h
  · cases h
  rename_i middle result hwrite
  obtain ⟨hafter, hresults⟩ := Prod.mk.inj h
  cases hrest : writer.writeAll middle files with
  | mk last rest =>
    rw [hrest] at hafter hresults
    obtain rfl : last = after := hafter
    cases rest with
    | error error => cases hresults
    | ok rest => exact ⟨middle, result, rest, hwrite, hrest, (Except.ok.inj hresults).symm⟩

/-- What a run that goes well writes first is stored, and the rest goes well too. -/
theorem ok_of_writeAll_cons {results : List WriteResult} (hdry : writer.dryRun = false)
    (h : writer.writeAll tree (file :: files) = (after, .ok results)) :
    ∃ middle place rest, writer.Stored file tree middle place ∧
      writer.writeAll middle files = (after, .ok rest) := by
  obtain ⟨middle, result, rest, hwrite, hrest, -⟩ := write_of_writeAll_cons h
  obtain ⟨place, hstored⟩ := stored_of_write hdry hwrite
  exact ⟨middle, place, rest, hstored, hrest⟩

theorem allStored_of_writeAll {results : List WriteResult} (hdry : writer.dryRun = false)
    (h : writer.writeAll tree files = (after, .ok results)) : writer.AllStored files tree after := by
  induction files generalizing tree results with
  | nil =>
    obtain ⟨rfl, -⟩ := Prod.mk.inj h
    exact ⟨by simp, .refl⟩
  | cons file files ih =>
    obtain ⟨middle, place, rest, hstored, hrest⟩ := ok_of_writeAll_cons hdry h
    exact .cons hstored (ih hrest)

/-- Files that are written to different places are all up to date in the end. -/
theorem find?_of_writeAll {results : List WriteResult} (hdry : writer.dryRun = false)
    (h : writer.writeAll tree files = (after, .ok results))
    (hdistinct : files.Pairwise fun a b =>
      after.locate (writer.target a) ≠ after.locate (writer.target b)) :
    ∀ file ∈ files, after.find? (writer.target file) = some (.text file.content) := by
  induction files generalizing tree results with
  | nil => simp
  | cons file files ih =>
    obtain ⟨middle, place, rest, hstored, hrest⟩ := ok_of_writeAll_cons hdry h
    rw [List.pairwise_cons] at hdistinct
    obtain ⟨hapart, hdistinct⟩ := hdistinct
    have hedits := (allStored_of_writeAll hdry hrest).edits
    have hplace := hedits.keptIn.locate hstored.located
    intro other hother
    obtain rfl | hother := List.mem_cons.1 hother
    · -- No later file is written to the same place.
      have hcontent : after.item? place = some (.text other.content) := by
        refine hedits.item?_of_unwritten hstored.content ?_
        rintro content ⟨later, hlater, hsame, -⟩
        exact hapart later hlater (hplace.trans hsame.symm)
      rw [find?, hplace]
      exact hcontent
    · exact ih hrest hdistinct other hother

/-- Each item is read if all are. -/
theorem mem_of_mapM_eq_ok {ε α β : Type} {read : α → Except ε β} {items : List α} {values : List β}
    (h : items.mapM read = .ok values) {item : α} (hitem : item ∈ items) :
    ∃ value ∈ values, read item = .ok value := by
  induction items generalizing values with
  | nil => simp at hitem
  | cons first rest ih =>
    rw [List.mapM_cons] at h
    obtain ⟨value, hfirst, htail⟩ := ok_of_bind_eq_ok h
    obtain ⟨others, hrest, hvalues⟩ := ok_of_bind_eq_ok htail
    obtain rfl := Except.ok.inj hvalues
    obtain rfl | hitem := List.mem_cons.1 hitem
    · exact ⟨value, by simp, hfirst⟩
    · obtain ⟨other, hother, hread⟩ := ih hrest hitem
      exact ⟨other, by simp [hother], hread⟩

/-- Texts are there if a check finds nothing to do. -/
theorem find?_of_check {statuses : List FileStatus} (h : writer.check tree files = .ok statuses)
    (hfresh : ∀ status ∈ statuses, status.isFresh = true) :
    ∀ file ∈ files, tree.find? (writer.target file) = some (.text file.content) := by
  intro file hfile
  obtain ⟨status, hstatus, hread⟩ := mem_of_mapM_eq_ok h hfile
  cases status with
  | fresh path => exact find?_of_fresh hread
  | stale path => cases hfresh _ hstatus
  | missing path => cases hfresh _ hstatus

section UpToDate

variable (h : ∀ file ∈ files, tree.find? (writer.target file) = some (.text file.content))
include h

/-- A check finds nothing to do if all texts are there. -/
theorem check_of_find? :
    writer.check tree files = .ok (files.map fun file => .fresh (writer.target file)) :=
  Emit.mapM_eq_pure fun file hfile => status_of_find? (h file hfile)

/-- Writing changes nothing if all texts are there. -/
theorem writeAll_of_find? (hdry : writer.dryRun = false) :
    writer.writeAll tree files = (tree, .ok (files.map fun file => .unchanged (writer.target file))) := by
  induction files with
  | nil => rfl
  | cons file files ih =>
    have hfirst : writer.write tree file = (tree, .ok (.unchanged (writer.target file))) := by
      rw [write, hdry, if_neg (by decide), status_of_find? (h file (by simp))]
    rw [writeAll, hfirst]
    dsimp only
    rw [ih fun other hother => h other (by simp [hother])]
    rfl

end UpToDate

end Writer

end EnumConverter
