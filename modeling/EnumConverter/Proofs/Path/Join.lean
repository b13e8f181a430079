import EnumConverter.Path
import EnumConverter.Proofs.Text.Line

namespace EnumConverter.Path

open Text

/-- The parts of a directory that come before those of a path in it. -/
def lead (base : Path) : List String :=
  if base.text = "" then []
  else if base.text.toList.getLast? = some '/' then base.parts.dropLast
  else base.parts

theorem isAbsolute_join (base : Path) {path : Path} (h : path.isAbsolute = false) :
    (base.join path).isAbsolute = base.isAbsolute := by
  unfold join
  rw [h, Bool.false_or]
  by_cases hempty : base.text = ""
  · rw [decide_eq_true hempty, if_pos rfl, h]
    simp [isAbsolute, hempty]
  · obtain ⟨c, rest, htext⟩ := List.exists_cons_of_ne_nil (mt String.toList_eq_nil_iff.1 hempty)
    rw [decide_eq_false hempty, if_neg (by decide)]
    split <;> simp [isAbsolute, htext]

theorem parts_join (base : Path) {path : Path} (h : path.isAbsolute = false) :
    (base.join path).parts = base.lead ++ path.parts := by
  unfold join lead
  rw [h, Bool.false_or]
  by_cases hempty : base.text = ""
  · rw [decide_eq_true hempty, if_pos rfl, if_pos hempty, List.nil_append]
  rw [decide_eq_false hempty, if_neg (by decide), if_neg hempty]
  split
  · rename_i hlast
    obtain ⟨front, hfront⟩ := List.getLast?_eq_some_iff.1 hlast
    have hbase : base.parts = (splitAt '/' front).map String.ofList ++ [""] := by
      rw [parts, hfront, splitAt_append_separator, List.map_append]
      rfl
    rw [hbase, List.dropLast_concat, parts, String.toList_append, hfront, List.append_assoc,
      List.singleton_append, splitAt_append_separator, List.map_append]
    rfl
  · have htext : (base.text ++ "/" ++ path.text).toList =
        base.text.toList ++ '/' :: path.text.toList := by simp
    rw [parts, htext, splitAt_append_separator, List.map_append]
    rfl

theorem parts_ne_nil (path : Path) : path.parts ≠ [] := by
  rw [parts, Ne, List.map_eq_nil_iff]
  exact splitAt_ne_nil _ _

theorem lead_ne_nil {base : Path} (h : base.text ≠ "") : base.lead ≠ [] := by
  unfold lead
  rw [if_neg h]
  split
  · rename_i hlast
    obtain ⟨front, hfront⟩ := List.getLast?_eq_some_iff.1 hlast
    rw [parts, hfront, splitAt_append_separator, List.map_append]
    simp [splitAt, splitAt_ne_nil]
  · exact base.parts_ne_nil

/-- A slash at the end of a directory leaves an empty part behind. -/
theorem parts_eq_lead {base : Path} (h : base.text ≠ "") :
    base.parts = base.lead ∨ base.parts = base.lead ++ [""] := by
  unfold lead
  rw [if_neg h]
  split
  · rename_i hlast
    obtain ⟨front, hfront⟩ := List.getLast?_eq_some_iff.1 hlast
    refine .inr ?_
    rw [parts, hfront, splitAt_append_separator, List.map_append]
    simp [splitAt]
  · exact .inl rfl

theorem slash_notMem_of_mem_parts {path : Path} {part : String} (h : part ∈ path.parts) :
    '/' ∉ part.toList := by
  obtain ⟨piece, hpiece, rfl⟩ := List.mem_map.1 h
  rw [String.toList_ofList]
  exact notMem_of_mem_splitAt _ piece hpiece

/-- Names with slashes between them are the parts of a path. -/
theorem parts_joined {names : List String} (hne : names ≠ [])
    (h : ∀ name ∈ names, '/' ∉ name.toList) : (Path.mk (joined "/" names)).parts = names := by
  fun_induction joined "/" names with
  | case1 => exact absurd rfl hne
  | case2 name =>
    rw [parts, splitAt_of_notMem (h name (by simp)), List.map_singleton, String.ofList_toList]
  | case3 name next rest ih =>
    have hrest := ih (by simp) fun other hother => h other (by simp [hother])
    have htext : (name ++ "/" ++ joined "/" (next :: rest)).toList =
        name.toList ++ '/' :: (joined "/" (next :: rest)).toList := by simp
    rw [parts] at hrest ⊢
    rw [htext, splitAt_append (h name (by simp)), List.map_cons, hrest, String.ofList_toList]

theorem isAbsolute_joined {name : String} {rest : List String} (hne : name ≠ "")
    (h : '/' ∉ name.toList) : (Path.mk (joined "/" (name :: rest))).isAbsolute = false := by
  obtain ⟨c, cs, hname⟩ := List.exists_cons_of_ne_nil (mt String.toList_eq_nil_iff.1 hne)
  have hc : c ≠ '/' := by
    rintro rfl
    simp [hname] at h
  cases rest with
  | nil => simp [isAbsolute, joined, hname, hc]
  | cons next rest => simp [isAbsolute, joined, hname, hc]

/-- The names among the parts of a path. -/
def names (path : Path) : List String :=
  path.parts.filter (!staysPut ·)

theorem components_eq (path : Path) :
    path.components =
      if path.isAbsolute then .root :: path.names.map Component.ofText
      else if path.parts.head? = some "." then .current :: path.names.map Component.ofText
      else path.names.map Component.ofText := rfl

/-- The steps of a path have no other characters than the path, slashes and dots. -/
theorem notMem_includeText {path : Path} {c : Char} (hslash : c ≠ '/') (hdot : c ≠ '.')
    (h : c ∉ path.text.toList) : c ∉ path.includeText.toList := by
  have hnames : ∀ component ∈ path.names.map Component.ofText, c ∉ component.text.toList := by
    intro component hcomponent
    obtain ⟨name, hname, rfl⟩ := List.mem_map.1 hcomponent
    obtain ⟨piece, hpiece, rfl⟩ := List.mem_map.1 (List.mem_filter.1 hname).1
    have hmem : c ∉ piece := fun hmem => h (mem_of_mem_splitAt _ piece hpiece c hmem)
    unfold Component.ofText
    split
    · simpa [Component.text] using hdot
    split
    · simpa [Component.text] using hdot
    · simpa [Component.text] using hmem
  refine notMem_joined (by simpa using hslash) (List.forall_mem_map.2 ?_)
  rw [components_eq]
  split
  · exact List.forall_mem_cons.2 ⟨by simpa [Component.text] using hslash, hnames⟩
  split
  · exact List.forall_mem_cons.2 ⟨by simpa [Component.text] using hdot, hnames⟩
  · exact hnames

/-- Paths in one directory are the same if their names are, unless one of them starts with a dot. -/
theorem same_join (base : Path) {first second : Path} (hfirst : first.isAbsolute = false)
    (hsecond : second.isAbsolute = false) (hdot : first.parts.head? ≠ some ".")
    (hdot' : second.parts.head? ≠ some ".") (hnames : first.names = second.names) :
    (base.join first).same (base.join second) = true := by
  have hjoined : (base.join first).names = (base.join second).names := by
    rw [names, names, parts_join base hfirst, parts_join base hsecond, List.filter_append,
      List.filter_append]
    exact congrArg _ hnames
  have hhead : (base.join first).parts.head? = some "." ↔
      (base.join second).parts.head? = some "." := by
    rw [parts_join base hfirst, parts_join base hsecond]
    cases base.lead with
    | nil => exact iff_of_false hdot hdot'
    | cons part rest => rfl
  rw [same, decide_eq_true_eq, components_eq, components_eq, isAbsolute_join base hfirst,
    isAbsolute_join base hsecond, hjoined]
  simp only [hhead]

end EnumConverter.Path
