import EnumConverter.Proofs.Project.Edits
import Mathlib.Tactic.ByContra

namespace EnumConverter.FileTree

variable {written : Location → String → Prop} {tree after : FileTree} {place next : Location}
  {part : String} {parts : List String} {path : Path} {content : String}

/-- The file that a path names holds a text, whether or not the path leads there. -/
def Holds (tree : FileTree) (path : Path) (content : String) : Prop :=
  tree.item? (tree.named path) = some (.text content)

instance : Decidable (tree.Holds path content) :=
  inferInstanceAs (Decidable (tree.item? (tree.named path) = some (.text content)))

theorem holds_of_find? (h : tree.find? path = some (.text content)) : tree.Holds path content := by
  obtain ⟨place, hlocate, hitem⟩ := locate_of_find? h
  rwa [Holds, named_of_locate hlocate]

theorem named_eq (h : after.current = tree.current) (path : Path) :
    after.named path = tree.named path := by
  rw [named, named, origin_eq h]

/-- Whether every directory is there that parts of a path go up from. -/
def climbs (tree : FileTree) (place : Location) : List String → Bool
  | [] => true
  | part :: rest =>
    (part ≠ ".." || tree.item? place = some .directory) && tree.climbs (descend place part) rest

/-- Parts that lead somewhere after some changes led there before if something was there, unless they
go up from a directory that was not. -/
theorem Edits.foldlM_step_before {place : Location} (h : Edits written tree after)
    (htree : tree.Grounded) (hfollow : parts.foldlM after.step place = .ok next)
    (hthere : (tree.item? next).isSome = true) (hclimbs : tree.climbs place parts = true) :
    parts.foldlM tree.step place = .ok next ∧ (tree.item? place).isSome = true := by
  induction parts generalizing place with
  | nil =>
    obtain rfl := Except.ok.inj hfollow
    exact ⟨rfl, hthere⟩
  | cons part parts ih =>
    rw [List.foldlM_cons] at hfollow
    obtain ⟨middle, hstep, hrest⟩ := ok_of_bind_eq_ok hfollow
    rw [climbs, descend_of_step hstep, Bool.and_eq_true] at hclimbs
    obtain ⟨hmiddle, hmiddleThere⟩ := ih hrest hclimbs.2
    have hback : tree.item? place = some .directory ∧ tree.step place part = .ok middle := by
      obtain ⟨hdirectory, ⟨hstays, rfl⟩ | ⟨rfl, rfl⟩ | ⟨⟨hmoves, hnotUp, hshort⟩, -, rfl⟩⟩ :=
        step_cases hstep
      · -- No file has become a directory.
        obtain ⟨item, hitem⟩ := Option.isSome_iff_exists.1 hmiddleThere
        have hplace : tree.item? middle = some .directory := by
          by_contra hfile
          refine h.isFile hitem ?_ hdirectory
          rintro rfl
          exact hfile hitem
        exact ⟨hplace, step_staysPut hplace hstays⟩
      · have hplace : tree.item? place = some .directory := by simpa using hclimbs.1
        exact ⟨hplace, step_up hplace⟩
      · have hplace := htree.parent hmiddleThere
        exact ⟨hplace, step_name hplace hmoves hnotUp hshort hmiddleThere⟩
    rw [List.foldlM_cons, hback.1, hback.2]
    exact ⟨hmiddle, rfl⟩

/-- A path that leads to a file after some changes led there before if the file was there, unless it
goes up from a directory that was not. -/
theorem Edits.find?_before (h : Edits written tree after) (htree : tree.Grounded)
    (hlocate : after.locate path = .ok place) (hholds : tree.Holds path content)
    (hclimbs : tree.climbs (tree.origin path) path.parts = true) :
    tree.find? path = some (.text content) := by
  have hcurrent := h.keptIn.current
  rw [Holds, ← named_eq hcurrent, named_of_locate hlocate] at hholds
  obtain ⟨hfault, hfollow⟩ := locate_eq_ok_iff.1 hlocate
  rw [origin_eq hcurrent] at hfollow
  have hbefore := (h.foldlM_step_before htree hfollow (by rw [hholds]; rfl) hclimbs).1
  rw [find?_of_locate (locate_eq_ok_iff.2 ⟨hfault, hbefore⟩)]
  exact hholds

/-- A file that no text is written to stays, and no other file takes its place. -/
theorem Edits.file_iff (h : Edits written tree after) (hunwritten : ∀ content, ¬ written place content)
    {item : Item} (hfile : item.isFile = true) :
    after.item? place = some item ↔ tree.item? place = some item := by
  obtain hsame | ⟨hfree, hmade⟩ := h.item?_cases hunwritten
  · rw [hsame]
  · rw [hfree, hmade]
    constructor
    · intro hitem
      obtain rfl := Option.some.inj hitem
      cases hfile
    · intro hitem
      cases hitem

theorem Edits.holds_iff (h : Edits written tree after)
    (hunwritten : ∀ content, ¬ written (tree.named path) content) :
    after.Holds path content ↔ tree.Holds path content := by
  rw [Holds, Holds, named_eq h.keptIn.current]
  exact h.file_iff hunwritten rfl

/-- A path that leads to a file leads to it after changes elsewhere. -/
theorem Edits.find?_of_unwritten (h : Edits written tree after)
    (hunwritten : ∀ content, ¬ written (tree.named path) content) {item : Item}
    (hfind : tree.find? path = some item) : after.find? path = some item := by
  obtain ⟨place, hlocate, hitem⟩ := locate_of_find? hfind
  rw [named_of_locate hlocate] at hunwritten
  rw [find?_of_locate (h.keptIn.locate hlocate)]
  exact h.item?_of_unwritten hitem hunwritten

end EnumConverter.FileTree
