import EnumConverter.Project.Discovery
import EnumConverter.Proofs.Project.Edits
import EnumConverter.Proofs.Project.Walk

namespace EnumConverter

/-- The file at a location is the same if no text is put there. -/
theorem FileTree.Edits.file?_eq {written : Location → String → Prop} {tree after : FileTree}
    {place : Location} (h : Edits written tree after)
    (hunwritten : ∀ content, ¬ written place content) : after.file? place = tree.file? place := by
  obtain hsame | ⟨hfree, hmade⟩ := h.item?_cases hunwritten
  · rw [file?, file?, hsame]
  · rw [file?, file?, hfree, hmade]
    rfl

namespace Search

open FileTree

variable {search : Search} {walk : Walk} {tree after : FileTree} {headers : List SourceFile}
  {paths : List Path} {path : Path}

/-- The header that a search makes of the file at a path, if it wants it and the file is a text. -/
def headerAt? (search : Search) (tree : FileTree) (path : Path) : Option SourceFile :=
  match tree.find? path with
  | some (.text content) =>
    if search.wants path then some ⟨path, path.relativeTo search.root, content⟩ else none
  | _ => none

theorem headerAt?_eq_some_iff {header : SourceFile} : search.headerAt? tree path = some header ↔
    search.wants path = true ∧ tree.find? path = some (.text header.content) ∧
      header.path = path ∧ header.relativePath = path.relativeTo search.root := by
  obtain ⟨own, relative, text⟩ := header
  unfold headerAt?
  split
  · rename_i content hfind
    by_cases hwants : search.wants path = true
    · simp [hfind, hwants, eq_comm, and_left_comm, and_comm]
    · simp [hwants]
  · rename_i hother
    refine iff_of_false (by simp) ?_
    rintro ⟨-, hfind, -⟩
    exact hother _ hfind

/-- Whether the file at a path is a text, if it is wanted. -/
def Readable (search : Search) (tree : FileTree) (path : Path) : Prop :=
  tree.isFile path = true → search.wants path = true → ∃ content, tree.find? path = some (.text content)

theorem visit_eq_ok_iff {entry : Except (List WalkFault) Path} {visited : Option SourceFile} :
    search.visit tree entry = .ok visited ↔
      ∃ path, entry = .ok path ∧ search.Readable tree path ∧ visited = search.headerAt? tree path := by
  cases entry with
  | error faults => simp [visit]
  | ok path =>
    obtain ⟨found, hfind⟩ : ∃ found, tree.find? path = found := ⟨_, rfl⟩
    simp only [Except.ok.injEq, exists_eq_left', visit, readFile, Readable, headerAt?,
      FileTree.isFile, hfind]
    cases hwants : search.wants path with
    | false => rcases found with _ | _ | _ | _ <;> simp [@eq_comm _ visited]
    | true => rcases found with _ | _ | _ | _ <;> simp [Item.isFile, Except.map, @eq_comm _ visited]

theorem mapM_visit_eq_ok_iff {entries : List (Except (List WalkFault) Path)}
    {visited : List (Option SourceFile)} : entries.mapM (search.visit tree) = .ok visited ↔
      ∃ paths : List Path, entries = paths.map .ok ∧ (∀ path ∈ paths, search.Readable tree path) ∧
        visited = paths.map (search.headerAt? tree) := by
  induction entries generalizing visited with
  | nil => simp [eq_comm, pure, Except.pure]
  | cons entry entries ih =>
    rw [List.mapM_cons]
    constructor
    · intro h
      obtain ⟨first, hfirst, hrest⟩ := ok_of_bind_eq_ok h
      obtain ⟨rest, hothers, hall⟩ := ok_of_bind_eq_ok hrest
      obtain ⟨path, rfl, hpath, rfl⟩ := visit_eq_ok_iff.1 hfirst
      obtain ⟨paths, rfl, hpaths, rfl⟩ := ih.1 hothers
      exact ⟨path :: paths, rfl, List.forall_mem_cons.2 ⟨hpath, hpaths⟩, (Except.ok.inj hall).symm⟩
    · rintro ⟨paths, hentries, hpaths, rfl⟩
      obtain ⟨path, rest, rfl, rfl, rfl⟩ := List.map_eq_cons_iff.1 hentries.symm
      rw [List.forall_mem_cons] at hpaths
      rw [visit_eq_ok_iff.2 ⟨path, rfl, hpaths.1, rfl⟩]
      exact congrArg (· >>= fun others => pure (search.headerAt? tree path :: others))
        (ih.2 ⟨rest, rfl, hpaths.2, rfl⟩)

/-- The headers that are made of the files at some paths. -/
def headersAt (search : Search) (tree : FileTree) (paths : List Path) : List SourceFile :=
  (paths.filterMap (search.headerAt? tree)).mergeSort fun a b => a.relativePath.notAfter b.relativePath

theorem mem_headersAt {header : SourceFile} : header ∈ search.headersAt tree paths ↔
    header.path ∈ paths ∧ search.headerAt? tree header.path = some header := by
  rw [headersAt, List.mem_mergeSort, List.mem_filterMap]
  constructor
  · rintro ⟨path, hpath, hheader⟩
    obtain ⟨-, -, hown, -⟩ := headerAt?_eq_some_iff.1 hheader
    exact hown ▸ ⟨hpath, hheader⟩
  · rintro ⟨hpath, hheader⟩
    exact ⟨_, hpath, hheader⟩

/-- A search goes well if it can start, the walk meets no faults, and all wanted files are texts. -/
theorem findAll_eq_ok_iff : search.findAll walk tree = .ok headers ↔
    tree.contains search.root = true ∧
      ∃ paths : List Path, walk tree search.root search.settings.respectGitignore = paths.map .ok ∧
        (∀ path ∈ paths, search.Readable tree path) ∧ headers = search.headersAt tree paths := by
  unfold findAll
  cases hcontains : tree.contains search.root with
  | false => simp
  | true =>
    have hmade : ∀ paths : List Path, (paths.map (search.headerAt? tree)).filterMap id =
        paths.filterMap (search.headerAt? tree) := fun paths => List.filterMap_map
    rw [if_neg (by decide)]
    constructor
    · intro h
      obtain ⟨visited, hvisited, hall⟩ := ok_of_bind_eq_ok h
      obtain ⟨paths, hpaths, hreadable, rfl⟩ := mapM_visit_eq_ok_iff.1 hvisited
      rw [hmade] at hall
      exact ⟨rfl, paths, hpaths, hreadable, (Except.ok.inj hall).symm⟩
    · rintro ⟨-, paths, hpaths, hreadable, rfl⟩
      rw [mapM_visit_eq_ok_iff.2 ⟨paths, hpaths, hreadable, rfl⟩, headersAt, ← hmade]
      rfl

section Distinct

variable {rules : IgnoreRules} {root : Location} (hrules : walk.Follows rules) (htree : tree.Grounded)
  (hroot : tree.locate search.root = .ok root)
  (hpaths : walk tree search.root search.settings.respectGitignore = paths.map .ok)
include hrules htree hroot hpaths

/-- The files that a walk comes across are known by their names behind its start. -/
theorem exists_names (hpath : path ∈ paths) (hfile : tree.isFile path = true) :
    ∃ names, path = search.root.behind names ∧ (∀ name ∈ names, IsName name) ∧
      path.relativeTo search.root = ⟨Text.joined "/" names⟩ := by
  obtain ⟨names, rfl, hplace, -⟩ := (hrules.reports htree hroot hpaths hfile).1 hpath
  have hnames := htree.isName (htree.isSome_of_locate hplace)
  exact ⟨names, rfl, hnames, Path.relativeTo_behind hnames (text_ne_empty_of_locate hroot)⟩

/-- No two headers have the same path as seen from the start. -/
theorem pairwise_headersAt : (search.headersAt tree paths).Pairwise
    fun a b => a.relativePath.same b.relativePath = false := by
  have hsymm : ∀ {a b : SourceFile}, a.relativePath.same b.relativePath = false →
      b.relativePath.same a.relativePath = false := by
    intro a b hab
    simpa [Path.same, eq_comm] using hab
  have hfiles : paths.filterMap (search.headerAt? tree) =
      (paths.filter tree.isFile).filterMap (search.headerAt? tree) := by
    rw [List.filterMap_filter]
    congr 1
    funext path
    split
    · rfl
    · rename_i hfile
      rw [← Option.not_isSome_iff_eq_none]
      intro hsome
      obtain ⟨header, hheader⟩ := Option.isSome_iff_exists.1 hsome
      obtain ⟨-, hfind, -⟩ := headerAt?_eq_some_iff.1 hheader
      rw [FileTree.isFile, hfind] at hfile
      exact hfile rfl
  rw [headersAt, (List.mergeSort_perm ..).pairwise_iff hsymm, hfiles, List.pairwise_filterMap]
  refine (hrules.once htree hpaths).imp_of_mem fun {a b} ha hb hab first hfirst second hsecond => ?_
  rw [List.mem_filter] at ha hb
  obtain ⟨names, rfl, hnames, hrelative⟩ := exists_names hrules htree hroot hpaths ha.1 ha.2
  obtain ⟨others, rfl, hothers, hrelative'⟩ := exists_names hrules htree hroot hpaths hb.1 hb.2
  obtain ⟨-, -, -, hfirst⟩ := headerAt?_eq_some_iff.1 hfirst
  obtain ⟨-, -, -, hsecond⟩ := headerAt?_eq_some_iff.1 hsecond
  rw [hfirst, hsecond, hrelative, hrelative']
  by_contra hsame
  exact hab (congrArg _ (Path.names_eq_of_same hnames hothers (by simpa using hsame)))

theorem nodup_headersAt : (search.headersAt tree paths).Nodup := by
  refine (pairwise_headersAt hrules htree hroot hpaths).imp fun {a b} hab hsame => ?_
  rw [hsame, Path.same] at hab
  simp at hab

end Distinct

/-- A change of a tree leaves the rules of a walk as they are, writes to no header that passes a test,
and writes no text that passes it. The tests are about texts, and `written` says which texts are put
where. -/
structure Spares (search : Search) (rules : IgnoreRules) (test : String → Bool)
    (headers : List SourceFile) (written : Location → String → Prop) (tree after : FileTree) :
    Prop where
  edits : Edits written tree after
  files : ∀ place, rules.files tree search.settings.respectGitignore place →
    after.file? place = tree.file? place
  marks : ∀ place, rules.marks tree search.settings.respectGitignore place →
    after.item? place = tree.item? place
  quiet : ∀ {place content}, written place content → test content = false
  overlap : ∀ header ∈ headers, ∀ place content, written place content →
    after.locate header.path = .ok place → test header.content = false

section Spares

variable {rules : IgnoreRules} {test : String → Bool} {written : Location → String → Prop}
  {root : Location} {later : List Path} (hrules : walk.Follows rules) (htree : tree.Grounded)
  (h : search.Spares rules test headers written tree after) (hroot : tree.locate search.root = .ok root)
  (hlater : walk after search.root search.settings.respectGitignore = later.map .ok)
include hrules htree h hroot hlater

/-- A file that the second walk comes across was there before, or it is a text that was written. -/
theorem Spares.find?_before {item : Item} (hpath : path ∈ later) (hfind : after.find? path = some item)
    (hfile : item.isFile = true) : tree.find? path = some item ∨
      ∃ content place, item = .text content ∧ written place content := by
  have hisFile : after.isFile path = true := by
    rw [FileTree.isFile, hfind]
    exact hfile
  obtain ⟨names, rfl, hplace, -⟩ := (hrules.reports (h.edits.grounded htree)
    (h.edits.keptIn.locate hroot) hlater hisFile).1 hpath
  rw [find?_of_locate hplace] at hfind
  obtain hold | ⟨content, rfl, hwritten⟩ := h.edits.isFile_cases hfind hfile
  · have hbefore := htree.locate_behind hroot (Option.isSome_of_eq_some hold)
      (locate_eq_ok_iff.1 hplace).1
    rw [find?_of_locate hbefore]
    exact .inl hold
  · exact .inr ⟨content, _, rfl, hwritten⟩

variable (hpaths : walk tree search.root search.settings.respectGitignore = paths.map .ok)
include hpaths

/-- Both walks come across the files that were there before. -/
theorem Spares.mem_iff (hfile : tree.isFile path = true) (hafter : after.isFile path = true) :
    path ∈ later ↔ path ∈ paths := by
  have hkept := h.edits.keptIn
  obtain ⟨place, hplace, hthere⟩ := locate_of_isFile hfile
  have hplaceAfter := hkept.locate hplace
  rw [hrules.reports (h.edits.grounded htree) (hkept.locate hroot) hlater hafter,
    hrules.reports htree hroot hpaths hfile, hplace, hplaceAfter]
  refine exists_congr fun names => and_congr_right fun _ => and_congr_right fun hnames => ?_
  obtain rfl := Except.ok.inj hnames
  rw [isFile_of_locate hplaceAfter] at hafter
  exact not_congr (hrules.stable hkept.current h.files h.marks hthere hafter)

variable (hreadable : ∀ path ∈ paths, search.Readable tree path)
include hreadable

/-- The second search can read all files that it wants. -/
theorem Spares.readable : ∀ path ∈ later, search.Readable after path := by
  intro path hpath hfile hwants
  obtain ⟨item, hitem, hisFile⟩ := (Option.any_eq_true ..).1 hfile
  obtain hold | ⟨content, -, rfl, -⟩ :=
    h.find?_before hrules htree hroot hlater hpath hitem hisFile
  · have hbefore : tree.isFile path = true := by
      rw [FileTree.isFile, hold]
      exact hisFile
    have hmem := (h.mem_iff hrules htree hroot hlater hpaths hbefore hfile).1 hpath
    obtain ⟨content, hcontent⟩ := hreadable path hmem hbefore hwants
    exact ⟨content, hitem.trans (hold.symm.trans hcontent)⟩
  · exact ⟨content, hitem⟩

variable (hheaders : headers = search.headersAt tree paths)
include hheaders

omit hreadable in
/-- Both searches find the same headers that pass the test. -/
theorem Spares.mem_headersAt_iff {header : SourceFile} (htest : test header.content = true) :
    header ∈ search.headersAt after later ↔ header ∈ search.headersAt tree paths := by
  constructor
  · intro hheader
    obtain ⟨hpath, hmade⟩ := mem_headersAt.1 hheader
    obtain ⟨hwants, hfind, -, hrelative⟩ := headerAt?_eq_some_iff.1 hmade
    obtain hold | ⟨content, place, hcontent, hwritten⟩ :=
      h.find?_before hrules htree hroot hlater hpath hfind rfl
    · have hmem := (h.mem_iff hrules htree hroot hlater hpaths (by rw [FileTree.isFile, hold]; rfl)
        (by rw [FileTree.isFile, hfind]; rfl)).1 hpath
      exact mem_headersAt.2 ⟨hmem, headerAt?_eq_some_iff.2 ⟨hwants, hold, rfl, hrelative⟩⟩
    · obtain rfl := Item.text.inj hcontent
      rw [h.quiet hwritten] at htest
      cases htest
  · intro hheader
    obtain ⟨hpath, hmade⟩ := mem_headersAt.1 hheader
    obtain ⟨hwants, hfind, -, hrelative⟩ := headerAt?_eq_some_iff.1 hmade
    obtain ⟨place, hplace, hitem⟩ := locate_of_find? hfind
    have hplaceAfter := h.edits.keptIn.locate hplace
    have hunwritten : ∀ content, ¬ written place content := by
      intro content hwritten
      have hquiet := h.overlap header (hheaders ▸ hheader) place content hwritten hplaceAfter
      rw [htest] at hquiet
      cases hquiet
    have hkept : after.find? header.path = some (.text header.content) := by
      rw [find?_of_locate hplaceAfter]
      exact h.edits.item?_of_unwritten hitem hunwritten
    have hmem := (h.mem_iff hrules htree hroot hlater hpaths (by rw [FileTree.isFile, hfind]; rfl)
      (by rw [FileTree.isFile, hkept]; rfl)).2 hpath
    exact mem_headersAt.2 ⟨hmem, headerAt?_eq_some_iff.2 ⟨hwants, hkept, rfl, hrelative⟩⟩

end Spares

/-- The next search goes well if its walk does. It finds the same headers that pass the test, in some
order, and no two of them have the same path. -/
theorem Spares.findAll {rules : IgnoreRules} {test : String → Bool}
    {written : Location → String → Prop} (hrules : walk.Follows rules) (htree : tree.Grounded)
    (h : search.Spares rules test headers written tree after)
    (hfound : search.findAll walk tree = .ok headers)
    (hwalk : ∃ later : List Path,
      walk after search.root search.settings.respectGitignore = later.map .ok) :
    ∃ found, search.findAll walk after = .ok found ∧
      (found.filter fun header => test header.content).Perm
        (headers.filter fun header => test header.content) ∧
      (found.filter fun header => test header.content).Pairwise
        fun a b => a.relativePath.same b.relativePath = false := by
  obtain ⟨later, hlater⟩ := hwalk
  obtain ⟨hcontains, paths, hpaths, hreadable, hheaders⟩ := findAll_eq_ok_iff.1 hfound
  obtain ⟨item, hitem⟩ := Option.isSome_iff_exists.1 hcontains
  obtain ⟨root, hroot, hthere⟩ := locate_of_find? hitem
  have hrootAfter := h.edits.keptIn.locate hroot
  have hgrounded := h.edits.grounded htree
  have hcontainsAfter : after.contains search.root = true := by
    rw [contains, find?_of_locate hrootAfter]
    exact h.edits.keptIn.item (Option.isSome_of_eq_some hthere)
  have hdistinct := pairwise_headersAt hrules hgrounded hrootAfter hlater
  have hnodup := nodup_headersAt hrules hgrounded hrootAfter hlater
  refine ⟨_, findAll_eq_ok_iff.2 ⟨hcontainsAfter, later, hlater,
    h.readable hrules htree hroot hlater hpaths hreadable, rfl⟩, ?_, hdistinct.filter _⟩
  rw [hheaders, List.perm_ext_iff_of_nodup (hnodup.filter _)
    ((nodup_headersAt hrules htree hroot hpaths).filter _)]
  intro header
  rw [List.mem_filter, List.mem_filter]
  exact and_congr_left
    fun htest => h.mem_headersAt_iff hrules htree hroot hlater hpaths hheaders htest

end Search

end EnumConverter
