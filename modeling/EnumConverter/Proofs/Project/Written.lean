import EnumConverter.Proofs.Project.Place
import EnumConverter.Proofs.Project.Store
import Mathlib.Data.List.Forall2

namespace EnumConverter.Writer

open FileTree

variable {written : Location → String → Prop} {writer : Writer} {tree middle after : FileTree}
  {file : GeneratedFile} {files : List GeneratedFile} {place : Location}

/-- No two files go to one location. -/
def Apart (writer : Writer) (tree : FileTree) (files : List GeneratedFile) : Prop :=
  files.Pairwise fun a b => tree.named (writer.target a) ≠ tree.named (writer.target b)

instance (writer : Writer) (tree : FileTree) (files : List GeneratedFile) :
    Decidable (writer.Apart tree files) :=
  inferInstanceAs (Decidable (files.Pairwise fun a b =>
    tree.named (writer.target a) ≠ tree.named (writer.target b)))

theorem Apart.of_current (h : writer.Apart tree files) (hcurrent : after.current = tree.current) :
    writer.Apart after files := by
  refine List.Pairwise.imp ?_ h
  intro a b hab
  rwa [named_eq hcurrent, named_eq hcurrent]

theorem result_of_store {path : Path} {content : String} {result : WriteResult}
    (h : store tree path content = (after, .ok result)) :
    result = .written path content.utf8ByteSize := by
  unfold store at h
  split at h
  · cases h
  · split at h
    · cases h
    · exact (Except.ok.inj (Prod.mk.inj h).2).symm

/-- A file is left alone exactly if its path leads to its text. -/
theorem result_of_write {result : WriteResult} (hdry : writer.dryRun = false)
    (h : writer.write tree file = (after, .ok result)) :
    (tree.find? (writer.target file) = some (.text file.content) →
        result = .unchanged (writer.target file)) ∧
      (tree.find? (writer.target file) ≠ some (.text file.content) →
        result = .written (writer.target file) file.content.utf8ByteSize) := by
  unfold write at h
  rw [hdry, if_neg (by decide)] at h
  split at h
  · cases h
  · rename_i path hfresh
    refine ⟨fun _ => (Except.ok.inj (Prod.mk.inj h).2).symm, fun hstale => ?_⟩
    exact absurd (find?_of_fresh hfresh) hstale
  · rename_i status hnotFresh hstatus
    refine ⟨fun hfind => ?_, fun _ => result_of_store h⟩
    rw [status_of_find? hfind] at hstatus
    exact absurd (Except.ok.inj hstatus).symm (hnotFresh _)

theorem edits_of_store_error {path : Path} {content : String} {error : WriteError}
    (h : store tree path content = (after, .error error)) : Edits written tree after := by
  have hprepared : Edits written tree (prepare tree path).1 := edits_prepare tree path
  unfold store at h
  split at h
  · rename_i hprepare
    obtain ⟨rfl, -⟩ := Prod.mk.inj h
    rwa [hprepare] at hprepared
  · rename_i hprepare
    split at h
    · obtain ⟨rfl, -⟩ := Prod.mk.inj h
      rwa [hprepare] at hprepared
    · cases h

/-- A file that cannot be written leaves nothing but directories. -/
theorem edits_of_write_error {error : WriteError}
    (h : writer.write tree file = (after, .error error)) : Edits written tree after := by
  unfold write at h
  split at h
  · cases h
  split at h
  · obtain ⟨rfl, -⟩ := Prod.mk.inj h
    exact .refl
  · cases h
  · exact edits_of_store_error h

/-- What writing answers for a file, by what was there before. -/
structure Answers (writer : Writer) (tree : FileTree) (file : GeneratedFile) (result : WriteResult) :
    Prop where
  known : tree.find? (writer.target file) = some (.text file.content) →
    result = .unchanged (writer.target file)
  unknown : ¬ tree.Holds (writer.target file) file.content →
    result = .written (writer.target file) file.content.utf8ByteSize
  either : result = .unchanged (writer.target file) ∨
    result = .written (writer.target file) file.content.utf8ByteSize

theorem answers_of_write {result : WriteResult} (hdry : writer.dryRun = false)
    (h : writer.write tree file = (after, .ok result)) : writer.Answers tree file result := by
  obtain ⟨hknown, hunknown⟩ := result_of_write hdry h
  refine ⟨hknown, fun hnew => hunknown fun hfind => hnew (holds_of_find? hfind), ?_⟩
  by_cases hfind : tree.find? (writer.target file) = some (.text file.content)
  · exact .inl (hknown hfind)
  · exact .inr (hunknown hfind)

/-- What is answered for a file does not depend on what was written elsewhere before. -/
theorem Answers.of_edits {result : WriteResult} (h : writer.Answers middle file result)
    (hedits : Edits written tree middle)
    (hunwritten : ∀ content, ¬ written (tree.named (writer.target file)) content) :
    writer.Answers tree file result where
  known hfind := h.known (hedits.find?_of_unwritten hunwritten hfind)
  unknown hnew := h.unknown (mt (hedits.holds_iff hunwritten).1 hnew)
  either := h.either

theorem writeAll_of_dryRun (hdry : writer.dryRun = true) (tree : FileTree)
    (files : List GeneratedFile) : writer.writeAll tree files =
      (tree, .ok (files.map fun file => .preview (writer.target file) file.content)) := by
  induction files with
  | nil => rfl
  | cons file files ih =>
    rw [writeAll, write, hdry, if_pos rfl]
    dsimp only
    rw [ih]
    rfl

/-- A text is stored at the location that its path names. -/
theorem Stored.named (h : writer.Stored file tree after place) :
    tree.named (writer.target file) = place := by
  rw [← named_eq h.edits.keptIn.current]
  exact named_of_locate h.located

theorem answers_of_writeAll {results : List WriteResult} (hdry : writer.dryRun = false)
    (hapart : writer.Apart tree files) (h : writer.writeAll tree files = (after, .ok results)) :
    List.Forall₂ (writer.Answers tree) files results := by
  induction files generalizing tree results with
  | nil =>
    obtain rfl := Except.ok.inj (Prod.mk.inj h).2
    exact .nil
  | cons file files ih =>
    obtain ⟨hfirst, hothers⟩ := List.pairwise_cons.1 hapart
    obtain ⟨middle, result, rest, hwrite, hrest, rfl⟩ := write_of_writeAll_cons h
    obtain ⟨place, hstored⟩ := stored_of_write hdry hwrite
    refine .cons (answers_of_write hdry hwrite) ?_
    -- The files behind the first one find the same as before it was written.
    have hlater := ih (Apart.of_current hothers hstored.edits.keptIn.current) hrest
    have hmiddle := (List.forall₂_and_left _ _).2 ⟨hfirst, hlater⟩
    refine hmiddle.imp fun other answer hother => ?_
    refine hother.2.of_edits hstored.edits fun content hwritten => ?_
    exact hother.1 (hstored.named.trans hwritten.1.symm)

/-- Files that go to different locations are all there in the end. -/
theorem find?_of_apart {results : List WriteResult} (hdry : writer.dryRun = false)
    (hapart : writer.Apart tree files) (h : writer.writeAll tree files = (after, .ok results)) :
    ∀ file ∈ files, after.find? (writer.target file) = some (.text file.content) := by
  have hstored := allStored_of_writeAll hdry h
  have hafter := hapart.of_current hstored.edits.keptIn.current
  refine find?_of_writeAll hdry h (hafter.imp_of_mem fun {a b} ha _ hab hsame => ?_)
  obtain ⟨place, hplace⟩ := hstored.located a ha
  exact hab ((named_of_locate hplace).trans (named_of_locate (hsame ▸ hplace)).symm)

/-- A file that no path names is the same as before. -/
theorem file_iff_of_writeAll {results : List WriteResult} (hdry : writer.dryRun = false)
    (h : writer.writeAll tree files = (after, .ok results))
    (hplace : ∀ file ∈ files, tree.named (writer.target file) ≠ place) {item : Item}
    (hfile : item.isFile = true) : after.item? place = some item ↔ tree.item? place = some item := by
  have hedits := (allStored_of_writeAll hdry h).edits
  refine hedits.file_iff ?_ hfile
  rintro content ⟨file, hmem, hlocate, -⟩
  rw [← named_of_locate hlocate, named_eq hedits.keptIn.current] at hplace
  exact hplace file hmem rfl

/-- A run that fails has written the files before the one that it fails at. -/
theorem exists_failed_write {error : WriteError}
    (h : writer.writeAll tree files = (after, .error error)) :
    ∃ before file rest middle results, files = before ++ file :: rest ∧
      writer.writeAll tree before = (middle, .ok results) ∧
      writer.write middle file = (after, .error error) := by
  induction files generalizing tree with
  | nil => cases h
  | cons file files ih =>
    unfold writeAll at h
    cases hwrite : writer.write tree file with
    | mk next outcome =>
      rw [hwrite] at h
      cases outcome with
      | error first =>
        obtain ⟨rfl, hsame⟩ := Prod.mk.inj h
        obtain rfl := Except.error.inj hsame
        exact ⟨[], file, files, tree, [], rfl, rfl, hwrite⟩
      | ok result =>
        dsimp only at h
        cases hrest : writer.writeAll next files with
        | mk last results =>
          rw [hrest] at h
          obtain ⟨rfl, hresults⟩ := Prod.mk.inj h
          cases results with
          | ok results => cases hresults
          | error later =>
            obtain rfl := Except.error.inj hresults
            obtain ⟨before, failed, rest, middle, results, rfl, hbefore, hfailed⟩ := ih hrest
            refine ⟨file :: before, failed, rest, middle, result :: results, rfl, ?_, hfailed⟩
            rw [writeAll, hwrite]
            dsimp only
            rw [hbefore]
            rfl

/-- What a run that goes well leaves behind. -/
structure Wrote (writer : Writer) (files : List GeneratedFile) (tree after : FileTree)
    (results : List WriteResult) : Prop where
  holds : ∀ file ∈ files, after.Holds (writer.target file) file.content
  answers : List.Forall₂ (writer.Answers tree) files results
  /-- A file that was there is left alone, unless its path goes up from a directory that was not. -/
  kept : List.Forall₂
    (fun file result => tree.Holds (writer.target file) file.content →
      tree.climbs (tree.origin (writer.target file)) (writer.target file).parts = true →
      result = .unchanged (writer.target file))
    files results
  others : ∀ place, (∀ file ∈ files, tree.named (writer.target file) ≠ place) →
    ∀ item, item.isFile = true → (after.item? place = some item ↔ tree.item? place = some item)
  fresh : writer.check after files = .ok (files.map fun file => .fresh (writer.target file))
  again : writer.writeAll after files =
    (after, .ok (files.map fun file => .unchanged (writer.target file)))

/-- What a run leaves behind that fails at a file. -/
structure FailedAt (writer : Writer) (before : List GeneratedFile) (file : GeneratedFile)
    (tree after : FileTree) (error : WriteError) : Prop where
  failed : ∃ middle results, writer.writeAll tree before = (middle, .ok results) ∧
    writer.write middle file = (after, .error error)
  holds : ∀ earlier ∈ before, after.Holds (writer.target earlier) earlier.content
  others : ∀ place, (∀ named ∈ before ++ [file], tree.named (writer.target named) ≠ place) →
    ∀ item, item.isFile = true → (after.item? place = some item ↔ tree.item? place = some item)

theorem wrote_of_writeAll {results : List WriteResult} (hdry : writer.dryRun = false)
    (htree : tree.Grounded) (hapart : writer.Apart tree files)
    (h : writer.writeAll tree files = (after, .ok results)) :
    writer.Wrote files tree after results := by
  have hfind := find?_of_apart hdry hapart h
  have hstored := allStored_of_writeAll hdry h
  have hanswers := answers_of_writeAll hdry hapart h
  have hkept : List.Forall₂
      (fun file result => tree.Holds (writer.target file) file.content →
        tree.climbs (tree.origin (writer.target file)) (writer.target file).parts = true →
        result = .unchanged (writer.target file)) files results := by
    have hlocated := (List.forall₂_and_left _ _).2 ⟨hstored.located, hanswers⟩
    refine hlocated.imp fun file result hanswer hholds hclimbs => ?_
    obtain ⟨⟨place, hplace⟩, hanswer⟩ := hanswer
    exact hanswer.known (hstored.edits.find?_before htree hplace hholds hclimbs)
  exact ⟨fun file hfile => holds_of_find? (hfind file hfile), hanswers, hkept,
    fun place hplace item => file_iff_of_writeAll hdry h hplace, check_of_find? hfind,
    writeAll_of_find? hfind hdry⟩

theorem failedAt_of_writeAll {error : WriteError} (hdry : writer.dryRun = false)
    (hapart : writer.Apart tree files) (h : writer.writeAll tree files = (after, .error error)) :
    ∃ before file rest, files = before ++ file :: rest ∧
      writer.FailedAt before file tree after error := by
  obtain ⟨before, file, rest, middle, results, rfl, hbefore, hfailed⟩ := exists_failed_write h
  have hkept : Edits (fun _ _ => False) middle after := edits_of_write_error hfailed
  have hfind := find?_of_apart hdry (List.pairwise_append.1 hapart).1 hbefore
  refine ⟨before, file, rest, rfl, ⟨middle, results, hbefore, hfailed⟩, ?_, ?_⟩
  · intro earlier hearlier
    exact holds_of_find? (hkept.find?_of_unwritten (by simp) (hfind earlier hearlier))
  · intro place hplace item hitem
    rw [hkept.file_iff (by simp) hitem]
    exact file_iff_of_writeAll hdry hbefore
      (fun named hnamed => hplace named (List.mem_append_left _ hnamed)) hitem

/-- A preview changes nothing and shows every file. A run that goes well leaves every file with its
text and all others as they were; a file that had its text is left alone, unless its path goes up from
a directory that was not there. Then all files are up to date, and running again changes nothing. A
run that fails has written the files before the one that it fails at, and has changed no other file. -/
theorem writeAll_changes (writer : Writer) {tree : FileTree} {files : List GeneratedFile}
    (htree : tree.Grounded) (hapart : writer.Apart tree files) :
    (writer.dryRun = true → writer.writeAll tree files =
      (tree, .ok (files.map fun file => .preview (writer.target file) file.content))) ∧
    (writer.dryRun = false → ∀ after results,
      writer.writeAll tree files = (after, .ok results) → writer.Wrote files tree after results) ∧
    (writer.dryRun = false → ∀ after error,
      writer.writeAll tree files = (after, .error error) →
        ∃ before file rest, files = before ++ file :: rest ∧
          writer.FailedAt before file tree after error) :=
  ⟨fun hdry => writeAll_of_dryRun hdry tree files,
    fun hdry _ _ => wrote_of_writeAll hdry htree hapart,
    fun hdry _ _ => failedAt_of_writeAll hdry hapart⟩

/-- An output directory with two files, which is not below the working directory. -/
def twoFiles : FileTree where
  items := [(["home"], .directory), (["home", "work"], .directory), (["out"], .directory),
    (["out", "a"], .text "A"), (["out", "b"], .text "B"), (["out", "sub"], .directory)]
  current := ["home", "work"]

theorem twoFiles_grounded : twoFiles.Grounded :=
  grounded_of_items (by decide +kernel) (by decide +kernel)

/-- Files that are there, that have changed, and that are new. The last one cannot be written because
a directory is in the way. -/
def mixedFiles : List GeneratedFile :=
  [⟨⟨"sub/../a"⟩, "A"⟩, ⟨⟨"b"⟩, "ä"⟩, ⟨⟨"new/deep/c"⟩, "C"⟩, ⟨⟨"./sub"⟩, "D"⟩]

/-- The writer for the output directory by its absolute path. -/
def absoluteWriter : Writer where
  root := ⟨"/out"⟩

/-- The writer for the output directory by a path that goes up from the working directory. -/
def upwardWriter : Writer where
  root := ⟨"../../out"⟩

theorem writeAll_changes_mixedFiles :
    twoFiles.Grounded ∧ absoluteWriter.Apart twoFiles mixedFiles ∧
      upwardWriter.Apart twoFiles mixedFiles ∧
      (∃ after, absoluteWriter.Wrote (mixedFiles.take 3) twoFiles after
        [.unchanged ⟨"/out/sub/../a"⟩, .written ⟨"/out/b"⟩ 2, .written ⟨"/out/new/deep/c"⟩ 1]) ∧
      ∃ before file rest after, mixedFiles = before ++ file :: rest ∧
        upwardWriter.FailedAt before file twoFiles after
          (.readExisting ⟨"../../out/./sub"⟩ .refused) := by
  have habsolute : absoluteWriter.Apart twoFiles mixedFiles := by decide +kernel
  have hupward : upwardWriter.Apart twoFiles mixedFiles := by decide +kernel
  have hfirst : absoluteWriter.Apart twoFiles (mixedFiles.take 3) := by decide +kernel
  have hwritten : (absoluteWriter.writeAll twoFiles (mixedFiles.take 3)).2 = .ok [.unchanged
      ⟨"/out/sub/../a"⟩, .written ⟨"/out/b"⟩ 2, .written ⟨"/out/new/deep/c"⟩ 1] := by
    decide +kernel
  have hrefused : (upwardWriter.writeAll twoFiles mixedFiles).2 =
      .error (.readExisting ⟨"../../out/./sub"⟩ .refused) := by
    decide +kernel
  refine ⟨twoFiles_grounded, habsolute, hupward, ?_, ?_⟩
  · rcases hrun : absoluteWriter.writeAll twoFiles (mixedFiles.take 3) with ⟨after, outcome⟩
    rw [hrun] at hwritten
    obtain rfl : outcome = _ := hwritten
    exact ⟨after, (writeAll_changes absoluteWriter twoFiles_grounded hfirst).2.1 rfl _ _ hrun⟩
  · rcases hrun : upwardWriter.writeAll twoFiles mixedFiles with ⟨after, outcome⟩
    rw [hrun] at hrefused
    obtain rfl : outcome = _ := hrefused
    obtain ⟨before, file, rest, hsplit, hfailed⟩ :=
      (writeAll_changes upwardWriter twoFiles_grounded hupward).2.2 rfl _ _ hrun
    exact ⟨before, file, rest, after, hsplit, hfailed⟩

/-- Two files that are there, by paths that go up from a directory that is not. -/
def strayFiles : List GeneratedFile :=
  [⟨⟨"new/../a"⟩, "A"⟩, ⟨⟨"new/../b"⟩, "B"⟩]

/-- The first file is written although it had its text. It brings the directory along, so that the path
of the second one, which led nowhere before either, leads to its text. -/
theorem strayFiles_answered_differently :
    twoFiles.Grounded ∧
      (strayFiles.Pairwise fun a b =>
        ¬ twoFiles.named (absoluteWriter.target a) <+: twoFiles.named (absoluteWriter.target b) ∧
        ¬ twoFiles.named (absoluteWriter.target b) <+: twoFiles.named (absoluteWriter.target a)) ∧
      (∀ file ∈ strayFiles, twoFiles.Holds (absoluteWriter.target file) file.content ∧
        twoFiles.find? (absoluteWriter.target file) = none) ∧
      (absoluteWriter.writeAll twoFiles strayFiles).2 =
        .ok [.written ⟨"/out/new/../a"⟩ 1, .unchanged ⟨"/out/new/../b"⟩] :=
  ⟨twoFiles_grounded, by decide +kernel, by decide +kernel, by decide +kernel⟩

end EnumConverter.Writer
