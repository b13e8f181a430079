import EnumConverter.Proofs.Project.Follow
import Mathlib.Logic.Relation

namespace EnumConverter.FileTree

/-- A place for an item in a directory that is there. -/
def Opens (tree : FileTree) (place : Location) : Prop :=
  ∃ directory name, place = directory ++ [name] ∧ tree.item? directory = some .directory ∧ IsName name

theorem Opens.ne_nil {tree : FileTree} {place : Location} (h : tree.Opens place) : place ≠ [] := by
  obtain ⟨directory, name, rfl, -⟩ := h
  simp

/-- One change of a tree, where `written` says which texts may be put where. Directories are made where
nothing is, and texts are put where no directory is. -/
inductive Edit (written : Location → String → Prop) (tree : FileTree) : FileTree → Prop
  | make {place : Location} (hopen : tree.Opens place) (hfree : tree.item? place = none) :
      Edit written tree (tree.set place .directory)
  | put {place : Location} {content : String} (hopen : tree.Opens place)
      (hfile : tree.item? place ≠ some .directory) (hwritten : written place content) :
      Edit written tree (tree.set place (.text content))

/-- Any number of changes of a tree. -/
abbrev Edits (written : Location → String → Prop) : FileTree → FileTree → Prop :=
  Relation.ReflTransGen (Edit written)

variable {written : Location → String → Prop} {tree after : FileTree} {place : Location} {item : Item}

theorem item?_set_self (tree : FileTree) (hplace : place ≠ []) (item : Item) :
    (tree.set place item).item? place = some item := by
  rw [item?_set tree hplace, if_pos rfl]

theorem item?_set_of_ne (tree : FileTree) (hplace : place ≠ []) (item : Item) {other : Location}
    (hother : other ≠ place) : (tree.set place item).item? other = tree.item? other := by
  rw [item?_set tree hplace, if_neg hother]

theorem Edit.mono {allowed : Location → String → Prop}
    (hallowed : ∀ place content, written place content → allowed place content)
    (h : Edit written tree after) : Edit allowed tree after := by
  cases h with
  | make hopen hfree => exact .make hopen hfree
  | put hopen hfile hwritten => exact .put hopen hfile (hallowed _ _ hwritten)

/-- What one change can do to the item at a place. -/
theorem Edit.item?_cases (h : Edit written tree after) (place : Location) :
    after.item? place = tree.item? place ∨
      tree.item? place = none ∧ after.item? place = some .directory ∨
      tree.item? place ≠ some .directory ∧
        ∃ content, written place content ∧ after.item? place = some (.text content) := by
  cases h with
  | @make made hopen hfree =>
    by_cases hsame : place = made
    · subst hsame
      exact .inr (.inl ⟨hfree, item?_set_self tree hopen.ne_nil _⟩)
    · exact .inl (item?_set_of_ne tree hopen.ne_nil _ hsame)
  | @put put content hopen hfile hwritten =>
    by_cases hsame : place = put
    · subst hsame
      exact .inr (.inr ⟨hfile, content, hwritten, item?_set_self tree hopen.ne_nil _⟩)
    · exact .inl (item?_set_of_ne tree hopen.ne_nil _ hsame)

theorem Edit.current (h : Edit written tree after) : after.current = tree.current := by
  cases h with
  | make => rfl
  | put => rfl

theorem Edit.keptIn (h : Edit written tree after) : tree.KeptIn after where
  directory := by
    intro place hplace
    obtain hsame | ⟨hfree, -⟩ | ⟨hfile, -⟩ := h.item?_cases place
    · rw [hsame, hplace]
    · simp [hfree] at hplace
    · exact absurd hplace hfile
  item := by
    intro place hplace
    obtain hsame | ⟨-, hmade⟩ | ⟨-, content, -, hput⟩ := h.item?_cases place
    · rwa [hsame]
    · rw [hmade]
      rfl
    · rw [hput]
      rfl
  current := h.current

/-- What is new is at a place in a directory that is there. -/
theorem Edit.opens (h : Edit written tree after) (hthere : (after.item? place).isSome = true) :
    (tree.item? place).isSome = true ∨ tree.Opens place := by
  have hset : ∀ (made : Location) (item : Item), tree.Opens made →
      ((tree.set made item).item? place).isSome = true →
      (tree.item? place).isSome = true ∨ tree.Opens place := by
    intro made item hopen hplace
    by_cases hsame : place = made
    · exact .inr (hsame ▸ hopen)
    · rw [item?_set_of_ne tree hopen.ne_nil item hsame] at hplace
      exact .inl hplace
  cases h with
  | make hopen hfree => exact hset _ _ hopen hthere
  | put hopen hfile hwritten => exact hset _ _ hopen hthere

theorem Edit.grounded (h : Edit written tree after) (htree : tree.Grounded) : after.Grounded where
  parent := by
    intro place name hthere
    obtain hold | ⟨directory, other, hplace, hdirectory, -⟩ := h.opens hthere
    · exact h.keptIn.directory (htree.parent hold)
    · obtain ⟨rfl, -⟩ := List.append_inj' hplace rfl
      exact h.keptIn.directory hdirectory
  name := by
    intro place name hthere
    obtain hold | ⟨directory, other, hplace, -, hname⟩ := h.opens hthere
    · exact htree.name hold
    · obtain ⟨-, hsame⟩ := List.append_inj' hplace rfl
      obtain rfl := List.singleton_inj.1 hsame
      exact hname
  current := by
    rw [h.current]
    exact h.keptIn.directory htree.current

/-- No file becomes a directory. -/
theorem Edit.isFile (h : Edit written tree after) (hplace : tree.item? place = some item)
    (hfile : item ≠ .directory) : after.item? place ≠ some .directory := by
  obtain hsame | ⟨hfree, -⟩ | ⟨-, content, -, hput⟩ := h.item?_cases place
  · rw [hsame, hplace]
    simpa using hfile
  · simp [hfree] at hplace
  · simp [hput]

namespace Edits

theorem mono {allowed : Location → String → Prop}
    (hallowed : ∀ place content, written place content → allowed place content)
    (h : Edits written tree after) : Edits allowed tree after := by
  induction h with
  | refl => exact .refl
  | tail _ hedit ih => exact ih.tail (hedit.mono hallowed)

theorem keptIn (h : Edits written tree after) : tree.KeptIn after := by
  induction h with
  | refl => exact .refl tree
  | tail _ hedit ih => exact ih.trans hedit.keptIn

theorem isFile (h : Edits written tree after) (hplace : tree.item? place = some item)
    (hfile : item ≠ .directory) : after.item? place ≠ some .directory := by
  induction h with
  | refl =>
    rw [hplace]
    simpa using hfile
  | @tail middle last hedits hedit ih =>
    obtain ⟨between, hbetween⟩ :=
      Option.isSome_iff_exists.1 ((keptIn hedits).item (Option.isSome_of_eq_some hplace))
    refine hedit.isFile hbetween ?_
    rintro rfl
    exact ih hbetween

/-- Where no text is written nothing can change but that a directory is made. -/
theorem item?_cases (h : Edits written tree after) (hunwritten : ∀ content, ¬ written place content) :
    after.item? place = tree.item? place ∨
      tree.item? place = none ∧ after.item? place = some .directory := by
  induction h with
  | refl => exact .inl rfl
  | @tail middle last hedits hedit ih =>
    obtain hsame | ⟨hfree, hmade⟩ | ⟨-, content, hwritten, -⟩ := hedit.item?_cases place
    · rwa [hsame]
    · obtain hmiddle | ⟨-, hmiddle⟩ := ih
      · exact .inr ⟨hmiddle.symm.trans hfree, hmade⟩
      · rw [hmiddle] at hfree
        cases hfree
    · exact absurd hwritten (hunwritten content)

/-- What no text is written to stays as it is. -/
theorem item?_of_unwritten (h : Edits written tree after) (hplace : tree.item? place = some item)
    (hunwritten : ∀ content, ¬ written place content) : after.item? place = some item := by
  obtain hsame | ⟨hfree, -⟩ := item?_cases h hunwritten
  · rw [hsame, hplace]
  · simp [hfree] at hplace

theorem grounded (h : Edits written tree after) (htree : tree.Grounded) : after.Grounded := by
  induction h with
  | refl => exact htree
  | tail _ hedit ih => exact hedit.grounded ih

/-- A file was there before, or it is a text that was written. -/
theorem isFile_cases (h : Edits written tree after) (hplace : after.item? place = some item)
    (hfile : item.isFile = true) :
    tree.item? place = some item ∨ ∃ content, item = .text content ∧ written place content := by
  induction h with
  | refl => exact .inl hplace
  | @tail middle last hedits hedit ih =>
    obtain hsame | ⟨-, hmade⟩ | ⟨-, content, hwritten, hput⟩ := hedit.item?_cases place
    · exact ih (hsame.symm.trans hplace)
    · rw [hmade] at hplace
      obtain rfl := Option.some.inj hplace
      cases hfile
    · rw [hput] at hplace
      exact .inr ⟨content, (Option.some.inj hplace).symm, hwritten⟩

end Edits

end EnumConverter.FileTree
