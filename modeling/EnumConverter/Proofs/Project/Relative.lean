import EnumConverter.Proofs.Project.Follow

namespace EnumConverter.Path

open Text

variable {base : Path} {names others : List String}

theorem ofText_of_isName {name : String} (h : IsName name) : Component.ofText name = .name name := by
  have hdot : name ≠ "." := by
    rintro rfl
    exact absurd h.moves (by decide)
  rw [Component.ofText, if_neg h.notUp, if_neg hdot]

theorem filter_of_isName (h : ∀ name ∈ names, IsName name) :
    names.filter (!staysPut ·) = names :=
  List.filter_eq_self.2 fun name hname => by simp [(h name hname).moves]

theorem map_ofText_of_isName (h : ∀ name ∈ names, IsName name) :
    names.map Component.ofText = names.map Component.name :=
  List.map_congr_left fun name hname => ofText_of_isName (h name hname)

section Names

variable (h : ∀ name ∈ names, IsName name)
include h

theorem isAbsolute_joined_names : (Path.mk (joined "/" names)).isAbsolute = false := by
  cases names with
  | nil => decide
  | cons name rest => exact isAbsolute_joined (h name (by simp)).ne_empty (h name (by simp)).noSlash

/-- Names with slashes between them are the steps of a path. -/
theorem components_joined :
    (Path.mk (joined "/" names)).components = names.map Component.name := by
  cases names with
  | nil => decide
  | cons name rest =>
    have hparts : (Path.mk (joined "/" (name :: rest))).parts = name :: rest :=
      parts_joined (by simp) fun other hother => (h other hother).noSlash
    have hdot : ¬ some name = some "." := by
      intro hname
      obtain rfl := Option.some.inj hname
      exact absurd (h "." (by simp)).moves (by decide)
    rw [components_eq, if_neg (by simp [isAbsolute_joined_names h]), Path.names, hparts,
      List.head?_cons, if_neg hdot, filter_of_isName h, map_ofText_of_isName h]

/-- Different names give different paths. -/
theorem names_eq_of_same (hothers : ∀ name ∈ others, IsName name)
    (hsame : (Path.mk (joined "/" names)).same ⟨joined "/" others⟩ = true) : names = others := by
  rw [same, decide_eq_true_eq, components_joined h, components_joined hothers] at hsame
  exact (List.map_inj_right fun _ _ hname => Component.name.inj hname).1 hsame

theorem parts_behind (base : Path) (hne : names ≠ []) :
    (base.behind names).parts = base.lead ++ names := by
  rw [behind, List.isEmpty_eq_false_iff.2 hne]
  change (base.join ⟨joined "/" names⟩).parts = _
  rw [parts_join base (isAbsolute_joined_names h),
    parts_joined hne fun name hname => (h name hname).noSlash]

theorem components_behind (hbase : base.text ≠ "") :
    (base.behind names).components = base.components ++ names.map Component.name := by
  by_cases hne : names = []
  · subst hne
    simp [behind]
  have hparts := parts_behind h base hne
  have habsolute : (base.behind names).isAbsolute = base.isAbsolute := by
    rw [behind, List.isEmpty_eq_false_iff.2 hne]
    exact isAbsolute_join base (isAbsolute_joined_names h)
  have hhead : (base.behind names).parts.head? = base.parts.head? := by
    obtain ⟨part, rest, hlead⟩ := List.exists_cons_of_ne_nil (lead_ne_nil hbase)
    obtain hsame | hslash := parts_eq_lead hbase
    · rw [hparts, hsame, hlead, List.cons_append, List.head?_cons, List.head?_cons]
    · rw [hparts, hslash, hlead, List.cons_append, List.cons_append, List.head?_cons, List.head?_cons]
  have hnames : (base.behind names).names = base.names ++ names := by
    rw [Path.names, Path.names, hparts, List.filter_append, filter_of_isName h]
    obtain hsame | hslash := parts_eq_lead hbase
    · rw [hsame]
    · rw [hslash, List.filter_append]
      simp [staysPut]
  rw [components_eq, components_eq, habsolute, hhead, hnames, List.map_append,
    map_ofText_of_isName h]
  split
  · rfl
  · split
    · rfl
    · rfl

end Names

/-- All steps of some parts are left behind, and the rest starts with its first step. -/
theorem partsAfter_append (front rest : List String) :
    partsAfter (front.countP (!staysPut ·)) (front ++ rest) = rest.dropWhile staysPut := by
  induction front with
  | nil =>
    rw [List.countP_nil, List.nil_append, partsAfter]
  | cons part front ih =>
    rw [List.cons_append]
    cases hpart : staysPut part with
    | false => rw [List.countP_cons_of_pos (by simp [hpart]), partsAfter, hpart, if_neg (by decide), ih]
    | true =>
      rw [List.countP_cons_of_neg (by simp [hpart]), ← ih]
      cases front.countP (!staysPut ·) with
      | zero => rw [partsAfter, partsAfter, List.dropWhile_cons_of_pos hpart]
      | succ count => rw [partsAfter, hpart, if_pos rfl]

/-- The path of names behind a directory is, as seen from the directory, the path of the names. -/
theorem relativeTo_behind (h : ∀ name ∈ names, IsName name) (hbase : base.text ≠ "") :
    (base.behind names).relativeTo base = ⟨joined "/" names⟩ := by
  have hprefix : base.components.isPrefixOf (base.behind names).components = true := by
    rw [components_behind h hbase, List.isPrefixOf_iff_prefix]
    exact List.prefix_append ..
  have hlead : base.parts.countP (!staysPut ·) = base.lead.countP (!staysPut ·) := by
    obtain hsame | hslash := parts_eq_lead hbase
    · rw [hsame]
    · rw [hslash, List.countP_append]
      simp [staysPut]
  have hmoves : ∀ name ∈ names, ¬ staysPut name = true := fun name hname => by
    simp [(h name hname).moves]
  have hrest : partsAfter (base.parts.countP (!staysPut ·)) (base.behind names).parts = names := by
    by_cases hne : names = []
    · subst hne
      have hall := partsAfter_append base.parts []
      rwa [List.append_nil] at hall
    · rw [parts_behind h base hne, hlead, partsAfter_append]
      obtain ⟨name, rest, rfl⟩ := List.exists_cons_of_ne_nil hne
      exact List.dropWhile_cons_of_neg (hmoves name (by simp))
  have htrim : (names.reverse.dropWhile staysPut).reverse = names := by
    cases hreverse : names.reverse with
    | nil => rw [List.dropWhile_nil, List.reverse_nil, ← List.reverse_reverse names, hreverse,
        List.reverse_nil]
    | cons name rest =>
      have hname : name ∈ names := List.mem_reverse.1 (hreverse ▸ List.mem_cons_self)
      rw [List.dropWhile_cons_of_neg (hmoves name hname), ← hreverse, List.reverse_reverse]
  rw [relativeTo, if_pos hprefix]
  dsimp only
  rw [hrest, htrim]

end EnumConverter.Path
