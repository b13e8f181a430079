import EnumConverter.Project.FileTree
import EnumConverter.Proofs.Path.Join
import Mathlib.Data.List.Induction

namespace EnumConverter

/-- A text that stands for an item of a directory, and for nothing else. -/
structure IsName (name : String) : Prop where
  moves : Path.staysPut name = false
  notUp : name ≠ ".."
  short : name.utf8ByteSize ≤ nameLimit
  noSlash : '/' ∉ name.toList

instance (name : String) : Decidable (IsName name) :=
  decidable_of_iff (Path.staysPut name = false ∧ name ≠ ".." ∧ name.utf8ByteSize ≤ nameLimit ∧
      '/' ∉ name.toList)
    ⟨fun ⟨moves, notUp, short, noSlash⟩ => ⟨moves, notUp, short, noSlash⟩,
      fun h => ⟨h.moves, h.notUp, h.short, h.noSlash⟩⟩

theorem IsName.ne_empty {name : String} (h : IsName name) : name ≠ "" := by
  rintro rfl
  exact absurd h.moves (by decide)

/-- What goes well in the end has gone well up to each point. -/
theorem ok_of_bind_eq_ok {ε α β : Type} {first : Except ε α} {next : α → Except ε β} {last : β}
    (h : first >>= next = .ok last) : ∃ middle, first = .ok middle ∧ next middle = .ok last := by
  cases first with
  | error error => cases h
  | ok middle => exact ⟨middle, rfl, h⟩

namespace FileTree

/-- What one part of a path can do in a directory. -/
theorem step_cases {tree : FileTree} {place next : Location} {part : String}
    (h : tree.step place part = .ok next) :
    tree.item? place = some .directory ∧
      (Path.staysPut part = true ∧ next = place ∨
        part = ".." ∧ next = place.dropLast ∨
        (Path.staysPut part = false ∧ part ≠ ".." ∧ part.utf8ByteSize ≤ nameLimit) ∧
          (tree.item? (place ++ [part])).isSome = true ∧ next = place ++ [part]) := by
  unfold step at h
  split at h
  · cases h
  rename_i hdirectory
  refine ⟨by simpa using hdirectory, ?_⟩
  split at h
  · rename_i hstays
    exact .inl ⟨hstays, (Except.ok.inj h).symm⟩
  rename_i hmoves
  split at h
  · rename_i hup
    exact .inr (.inl ⟨hup, (Except.ok.inj h).symm⟩)
  rename_i hnotUp
  split at h
  · cases h
  rename_i hshort
  split at h
  · rename_i hthere
    exact .inr (.inr ⟨⟨by simpa using hmoves, hnotUp, by omega⟩, hthere, (Except.ok.inj h).symm⟩)
  · cases h

variable {tree after : FileTree} {place next : Location} {part : String} {parts names : List String}
  {path : Path}

theorem step_staysPut (hdirectory : tree.item? place = some .directory)
    (h : Path.staysPut part = true) : tree.step place part = .ok place := by
  simp [step, hdirectory, h]

theorem step_up (hdirectory : tree.item? place = some .directory) :
    tree.step place ".." = .ok place.dropLast := by
  simp [step, hdirectory, Path.staysPut]

theorem step_name (hdirectory : tree.item? place = some .directory)
    (hmoves : Path.staysPut part = false) (hnotUp : part ≠ "..")
    (hshort : part.utf8ByteSize ≤ nameLimit)
    (hthere : (tree.item? (place ++ [part])).isSome = true) :
    tree.step place part = .ok (place ++ [part]) := by
  simp [step, hdirectory, hmoves, hnotUp, Nat.not_lt.2 hshort, hthere]

theorem locate_eq_ok_iff : tree.locate path = .ok place ↔
    path.fault? = none ∧ path.parts.foldlM tree.step (tree.origin path) = .ok place := by
  unfold locate
  cases path.fault? with
  | none => simp
  | some fault => simp

theorem locate_of_find? {item : Item} (h : tree.find? path = some item) :
    ∃ place, tree.locate path = .ok place ∧ tree.item? place = some item := by
  unfold find? at h
  cases hlocate : tree.locate path with
  | error fault =>
    rw [hlocate] at h
    cases h
  | ok place =>
    rw [hlocate] at h
    exact ⟨place, rfl, h⟩

theorem find?_of_locate (h : tree.locate path = .ok place) : tree.find? path = tree.item? place := by
  rw [find?, h]

/-- What is in a tree is in the other one too, directories are directories, and the working directory
is the same. -/
structure KeptIn (tree after : FileTree) : Prop where
  directory : ∀ {place}, tree.item? place = some .directory → after.item? place = some .directory
  item : ∀ {place}, (tree.item? place).isSome = true → (after.item? place).isSome = true
  current : after.current = tree.current

theorem KeptIn.refl (tree : FileTree) : tree.KeptIn tree := ⟨id, id, rfl⟩

theorem KeptIn.trans {last : FileTree} (h : tree.KeptIn after) (h' : after.KeptIn last) :
    tree.KeptIn last where
  directory hplace := h'.directory (h.directory hplace)
  item hplace := h'.item (h.item hplace)
  current := h'.current.trans h.current

theorem origin_eq (h : after.current = tree.current) (path : Path) :
    after.origin path = tree.origin path := by
  rw [origin, origin, h]

theorem KeptIn.step (h : tree.KeptIn after) (hstep : tree.step place part = .ok next) :
    after.step place part = .ok next := by
  obtain ⟨hdirectory, ⟨hstays, rfl⟩ | ⟨rfl, rfl⟩ | ⟨⟨hmoves, hnotUp, hshort⟩, hthere, rfl⟩⟩ :=
    step_cases hstep
  · exact step_staysPut (h.directory hdirectory) hstays
  · exact step_up (h.directory hdirectory)
  · exact step_name (h.directory hdirectory) hmoves hnotUp hshort (h.item hthere)

theorem KeptIn.foldlM_step (h : tree.KeptIn after)
    (hfollow : parts.foldlM tree.step place = .ok next) :
    parts.foldlM after.step place = .ok next := by
  induction parts generalizing place with
  | nil => exact hfollow
  | cons part parts ih =>
    rw [List.foldlM_cons] at hfollow ⊢
    obtain ⟨middle, hstep, hrest⟩ := ok_of_bind_eq_ok hfollow
    rw [h.step hstep]
    exact ih hrest

/-- A tree in which nothing is lost leads a path to the same place. -/
theorem KeptIn.locate (h : tree.KeptIn after) (hpath : tree.locate path = .ok place) :
    after.locate path = .ok place := by
  rw [locate_eq_ok_iff] at hpath ⊢
  rw [origin_eq h.current]
  exact ⟨hpath.1, h.foldlM_step hpath.2⟩

theorem descend_of_step (h : tree.step place part = .ok next) : descend place part = next := by
  obtain ⟨-, ⟨hstays, rfl⟩ | ⟨rfl, rfl⟩ | ⟨⟨hmoves, hnotUp, -⟩, -, rfl⟩⟩ := step_cases h
  · rw [descend, if_pos hstays]
  · rfl
  · rw [descend, if_neg (by simp [hmoves]), if_neg hnotUp]

theorem foldl_descend (h : parts.foldlM tree.step place = .ok next) :
    parts.foldl descend place = next := by
  induction parts generalizing place with
  | nil => exact Except.ok.inj h
  | cons part parts ih =>
    rw [List.foldlM_cons] at h
    obtain ⟨middle, hstep, hrest⟩ := ok_of_bind_eq_ok h
    rw [List.foldl_cons, descend_of_step hstep]
    exact ih hrest

/-- A path that leads anywhere leads to the location that it names. -/
theorem named_of_locate (h : tree.locate path = .ok place) : tree.named path = place :=
  foldl_descend (locate_eq_ok_iff.1 h).2

/-- Parts without steps upwards lead to their names behind the place where they start. -/
theorem place_of_foldlM_step (hnotUp : ".." ∉ parts)
    (hfollow : parts.foldlM tree.step place = .ok next) :
    next = place ++ parts.filter (!Path.staysPut ·) := by
  induction parts generalizing place with
  | nil =>
    obtain rfl := Except.ok.inj hfollow
    simp
  | cons part parts ih =>
    rw [List.mem_cons, not_or] at hnotUp
    rw [List.foldlM_cons] at hfollow
    obtain ⟨middle, hstep, hrest⟩ := ok_of_bind_eq_ok hfollow
    have hnext := ih hnotUp.2 hrest
    obtain ⟨-, ⟨hstays, rfl⟩ | ⟨rfl, rfl⟩ | ⟨⟨hmoves, -, -⟩, -, rfl⟩⟩ := step_cases hstep
    · simp [hnext, hstays]
    · exact absurd rfl hnotUp.1
    · simp [hnext, hmoves]

/-- Whatever is in a tree is in a directory of the tree, under a name that an item can have. The working
directory is there. -/
structure Grounded (tree : FileTree) : Prop where
  parent : ∀ {place : Location} {name : String}, (tree.item? (place ++ [name])).isSome = true →
    tree.item? place = some .directory
  name : ∀ {place : Location} {name : String}, (tree.item? (place ++ [name])).isSome = true →
    IsName name
  current : tree.item? tree.current = some .directory

/-- The items of a tree are at places where something is. -/
theorem isSome_item?_of_mem {entry : Location × Item} (h : entry ∈ tree.items) :
    (tree.item? entry.1).isSome = true := by
  rw [item?]
  split
  · rfl
  · rw [Option.isSome_iff_ne_none, Ne, List.lookup_eq_none_iff]
    intro hnone
    simpa using hnone entry h

/-- An item at a place is an item of the tree. -/
theorem mem_items_of_item? {item : Item} (hplace : place ≠ []) (h : tree.item? place = some item) :
    (place, item) ∈ tree.items := by
  rw [item?, if_neg hplace, List.lookup_eq_some_iff] at h
  obtain ⟨before, rest, hitems, -⟩ := h
  rw [hitems]
  simp

theorem grounded_of_items (hcurrent : tree.item? tree.current = some .directory)
    (h : ∀ entry ∈ tree.items, tree.item? entry.1.dropLast = some .directory ∧
      ∀ name ∈ entry.1.getLast?, IsName name) : tree.Grounded := by
  have hentry : ∀ {place : Location} {name : String}, (tree.item? (place ++ [name])).isSome = true →
      tree.item? place = some .directory ∧ IsName name := by
    intro place name hthere
    obtain ⟨item, hitem⟩ := Option.isSome_iff_exists.1 hthere
    simpa using h _ (mem_items_of_item? (by simp) hitem)
  exact ⟨fun hthere => (hentry hthere).1, fun hthere => (hentry hthere).2, hcurrent⟩

namespace Grounded

variable (h : tree.Grounded)
include h

/-- What lies behind a place lies in a directory. -/
theorem directory (hthere : (tree.item? (place ++ names)).isSome = true) (hne : names ≠ []) :
    tree.item? place = some .directory := by
  induction names using List.reverseRecOn with
  | nil => exact absurd rfl hne
  | append_singleton front last ih =>
    rw [← List.append_assoc] at hthere
    have hparent := h.parent hthere
    by_cases hfront : front = []
    · rw [hfront, List.append_nil] at hparent
      exact hparent
    · exact ih (by rw [hparent]; rfl) hfront

theorem isName (hthere : (tree.item? (place ++ names)).isSome = true) :
    ∀ name ∈ names, IsName name := by
  induction names using List.reverseRecOn with
  | nil => simp
  | append_singleton front last ih =>
    rw [← List.append_assoc] at hthere
    have hfront := ih (by rw [h.parent hthere]; rfl)
    intro name hname
    obtain hname | hname := List.mem_append.1 hname
    · exact hfront name hname
    · exact List.mem_singleton.1 hname ▸ h.name hthere

/-- The names behind a directory lead to the place that they name. -/
theorem foldlM_names (hthere : (tree.item? (place ++ names)).isSome = true) :
    names.foldlM tree.step place = .ok (place ++ names) := by
  induction names generalizing place with
  | nil =>
    rw [List.append_nil]
    rfl
  | cons name names ih =>
    have hname := h.isName hthere name (by simp)
    have hplace := h.directory hthere (by simp)
    have hsplit : place ++ name :: names = place ++ [name] ++ names := by simp
    rw [hsplit] at hthere ⊢
    have hnext : (tree.item? (place ++ [name])).isSome = true := by
      by_cases hnames : names = []
      · subst hnames
        rwa [List.append_nil] at hthere
      · rw [h.directory hthere hnames]
        rfl
    rw [List.foldlM_cons, step_name hplace hname.moves hname.notUp hname.short hnext]
    exact ih hthere

theorem isSome_of_step (hstep : tree.step place part = .ok next) :
    (tree.item? next).isSome = true := by
  obtain ⟨hdirectory, ⟨-, rfl⟩ | ⟨-, rfl⟩ | ⟨-, hnext, rfl⟩⟩ := step_cases hstep
  · rw [hdirectory]
    rfl
  · by_cases hplace : place = []
    · rw [hplace]
      rfl
    · rw [← List.dropLast_concat_getLast hplace] at hdirectory
      rw [h.parent (Option.isSome_of_eq_some hdirectory)]
      rfl
  · exact hnext

theorem isSome_of_foldlM (hthere : (tree.item? place).isSome = true)
    (hfollow : parts.foldlM tree.step place = .ok next) : (tree.item? next).isSome = true := by
  induction parts generalizing place with
  | nil =>
    obtain rfl := Except.ok.inj hfollow
    exact hthere
  | cons part parts ih =>
    rw [List.foldlM_cons] at hfollow
    obtain ⟨middle, hstep, hrest⟩ := ok_of_bind_eq_ok hfollow
    exact ih (h.isSome_of_step hstep) hrest

/-- Something is where a path leads. -/
theorem isSome_of_locate (hpath : tree.locate path = .ok place) :
    (tree.item? place).isSome = true := by
  refine h.isSome_of_foldlM ?_ (locate_eq_ok_iff.1 hpath).2
  unfold origin
  split
  · rfl
  · rw [h.current]
    rfl

/-- The names of a place behind a directory, written behind the path of the directory, lead there. -/
theorem locate_behind {base : Path} {root : Location} (hbase : tree.locate base = .ok root)
    (hthere : (tree.item? (root ++ names)).isSome = true)
    (hfault : (base.behind names).fault? = none) :
    tree.locate (base.behind names) = .ok (root ++ names) := by
  by_cases hne : names = []
  · subst hne
    rwa [List.append_nil]
  obtain ⟨hbaseFault, hroot⟩ := locate_eq_ok_iff.1 hbase
  have hnames := h.isName hthere
  have hnoSlash : ∀ name ∈ names, '/' ∉ name.toList := fun name hname => (hnames name hname).noSlash
  rw [Path.behind, List.isEmpty_eq_false_iff.2 hne] at hfault ⊢
  have hrelative : (Path.mk (Text.joined "/" names)).isAbsolute = false := by
    obtain ⟨name, rest, rfl⟩ := List.exists_cons_of_ne_nil hne
    exact Path.isAbsolute_joined (hnames name (by simp)).ne_empty (hnoSlash name (by simp))
  have horigin : tree.origin (base.join ⟨Text.joined "/" names⟩) = tree.origin base := by
    rw [origin, origin, Path.isAbsolute_join base hrelative]
  have hlead : base.lead.foldlM tree.step (tree.origin base) = .ok root := by
    have hne : base.text ≠ "" := by
      intro hempty
      simp [Path.fault?, Path.hasNull, hempty] at hbaseFault
    obtain hsame | hslash := Path.parts_eq_lead hne
    · rwa [← hsame]
    · -- The empty part behind the last slash leads nowhere else.
      rw [hslash, List.foldlM_append] at hroot
      obtain ⟨place, hplace, hempty⟩ := ok_of_bind_eq_ok hroot
      have hend : root = place ++ [""].filter (!Path.staysPut ·) :=
        place_of_foldlM_step (by decide) hempty
      rw [hplace, hend]
      simp [Path.staysPut]
  refine locate_eq_ok_iff.2 ⟨hfault, ?_⟩
  change (base.join ⟨Text.joined "/" names⟩).parts.foldlM tree.step
    (tree.origin (base.join ⟨Text.joined "/" names⟩)) = _
  rw [horigin, Path.parts_join base hrelative, Path.parts_joined hne hnoSlash, List.foldlM_append,
    hlead]
  exact h.foldlM_names hthere

end Grounded

end FileTree

end EnumConverter
