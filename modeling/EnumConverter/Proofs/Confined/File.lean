import EnumConverter.Proofs.Confined.Converter
import EnumConverter.Proofs.Inert.File

namespace EnumConverter

open Source Scan Text Emit

theorem alike_joined {separator : String} (hseparator : Alike separator.toList separator.toList)
    {texts others : List String}
    (h : List.Forall₂ (fun text other : String => Alike text.toList other.toList) texts others) :
    Alike (joined separator texts).toList (joined separator others).toList := by
  induction h with
  | nil => exact .nil
  | cons hfirst hrest ih =>
    cases hrest with
    | nil => exact hfirst
    | cons hnext hmore => exact (hfirst.followed hseparator).followed ih

theorem alike_namespaceBlock {names : List String} (hnames : ∀ name ∈ names, isIdentifier name.toList = true)
    {fragments others : List String} (hne : "" ∉ fragments) (hne' : "" ∉ others)
    (h : List.Forall₂ (fun text other : String => Alike text.toList other.toList) fragments others) :
    Alike (namespaceBlock (joined "::" names) fragments).toList
      (namespaceBlock (joined "::" names) others).toList := by
  have hfeed : Alike "\n".toList "\n".toList := alike_lineFeed
  have hfilter {texts : List String} (htexts : "" ∉ texts) : texts.filter (· ≠ "") = texts := by
    rw [List.filter_eq_self]
    rintro text htext
    simpa using ne_of_mem_of_not_mem htext htexts
  have hbody := alike_joined hfeed h
  have hscope : IsPlain (joined "::" names) :=
    isPlain_joined (by decide) fun name hname => isPlain_of_isIdentifier (hnames name hname)
  unfold namespaceBlock
  dsimp only
  rw [hfilter hne, hfilter hne']
  split
  · exact hfeed.followed hbody
  · have hopen : Alike ("\nnamespace " ++ joined "::" names ++ " \x7b\n\n").toList
        ("\nnamespace " ++ joined "::" names ++ " \x7b\n\n").toList := by
      refine alike_plainText ((IsPlain.append (by decide) hscope).append (by decide)) ?_
      rw [String.toList_append, List.getLast?_append]
      rfl
    have hclose : Alike ("\n\x7d  // namespace " ++ joined "::" names ++ "\n").toList
        ("\n\x7d  // namespace " ++ joined "::" names ++ "\n").toList := by
      have htext : ("\n\x7d  // namespace " ++ joined "::" names ++ "\n").toList = "\n\x7d  ".toList ++
          ('/' :: '/' :: (" namespace ".toList ++ (joined "::" names).toList) ++ ['\n']) := by
        simp
      rw [htext]
      refine (alike_plainText (by decide) (by decide)).append (alike_lineComment ?_)
      rw [List.mem_append, not_or]
      exact ⟨by decide, notMem_joined (by decide) fun name hname =>
        lineFeed_notMem_of_isIdentifier (hnames name hname)⟩
    have htext (body : String) : "\nnamespace " ++ joined "::" names ++ " \x7b\n\n" ++ body ++
          "\n\x7d  // namespace " ++ joined "::" names ++ "\n" =
        "\nnamespace " ++ joined "::" names ++ " \x7b\n\n" ++ body ++
          ("\n\x7d  // namespace " ++ joined "::" names ++ "\n") := by
      simp only [String.append_assoc]
    rw [htext, htext]
    exact (hopen.followed hbody).followed hclose

/-- Files with one preamble and code that is alike have the same tokens on the same lines. -/
theorem tokenize_alike {preamble code other : String} (hpreamble : InertLines preamble.toList)
    (hcode : Alike code.toList other.toList) :
    (tokenize (preamble ++ code)).map Token.onLine = (tokenize (preamble ++ other)).map Token.onLine := by
  obtain ⟨there, comments, -, -, hread⟩ := hpreamble {} rfl
  obtain ⟨after, after', seen, -, hseen, hseen'⟩ := hcode there there ⟨rfl, rfl, rfl⟩
  have htokens (text : String) : (tokenize (preamble ++ text)).map Token.onLine =
      comments.map Token.onLine ++ there.onLines text.toList := by
    rw [tokenize, String.toList_append, hread, List.map_append]
    rfl
  have hend := hseen []
  have hend' := hseen' []
  rw [List.append_nil] at hend hend'
  rw [htokens, htokens, hend, hend']
  simp [Cursor.onLines]

theorem source_written_ne (indent : Indent) (declaration : Declaration) (kind : Conversion) :
    (written indent declaration kind).source ≠ "" := by
  have hcons (line : CodeLine) (lines : List CodeLine) : renderLines indent (line :: lines) ≠ "" := by
    intro hempty
    have hlist := congrArg String.toList hempty
    simp [renderLines, CodeLine.render] at hlist
  cases kind with
  | string => exact hcons _ _
  | json => exact hcons _ _

theorem Declaration.Worded.namespacePart {declaration : Declaration} (h : declaration.Worded) :
    ∀ name ∈ declaration.path.scope.namespacePart.names, isIdentifier name.toList = true := by
  intro name hname
  obtain ⟨segment, hsegment, rfl⟩ := List.mem_map.1 hname
  refine h.path _ (List.mem_append_left _ (List.mem_map_of_mem ?_))
  exact List.takeWhile_subset _ hsegment

namespace Declaration.SameButValues

variable {declaration other : Declaration} (h : declaration.SameButValues other)
include h

theorem functionNamespace_eq : declaration.functionNamespace = other.functionNamespace := by
  rw [functionNamespace, functionNamespace, h.path]

theorem includeText_eq (snake : String → String) (layout : Layout) :
    layout.includeText snake declaration = layout.includeText snake other := by
  unfold Layout.includeText Layout.fileName Layout.stem Declaration.name
  rw [h.path]

theorem enumerators_ne_nil (hne : declaration.enumerators ≠ []) : other.enumerators ≠ [] := by
  intro hnil
  have hnames := h.names
  rw [hnil, List.map_nil, List.map_eq_nil_iff] at hnames
  exact hne hnames

variable (snake : String → String) (indent : Indent) (layout : Layout) (target : String)
  (kinds : List Conversion)

/-- The header does not depend on the values. -/
theorem render_header_eq :
    (render snake layout target declaration (kinds.map (written indent declaration))).header =
      (render snake layout target other (kinds.map (written indent other))).header := by
  have hincludes (kind : Conversion) : (written indent declaration kind).headerIncludes =
      (written indent other kind).headerIncludes := by cases kind <;> rfl
  simp only [render, List.flatMap_map, List.map_map, Function.comp_def, hincludes,
    h.header_eq indent, h.functionNamespace_eq]

/-- The source file has the same tokens on the same lines, whatever the values are. -/
theorem render_source_alike (hwords : declaration.Worded) (htarget : '\n' ∉ target.toList)
    (hinclude : '\n' ∉ (layout.includeText snake declaration).toList) :
    (tokenize
        (render snake layout target declaration (kinds.map (written indent declaration))).source).map
        Token.onLine =
      (tokenize (render snake layout target other (kinds.map (written indent other))).source).map
        Token.onLine := by
  let preamble := banner target ++ (includeLine (layout.includeText snake declaration) ++
    includeBlock (kinds.flatMap fun kind => (written indent declaration kind).sourceIncludes))
  have hpreamble : InertLines preamble.toList := by
    refine (inertLines_banner htarget).followed (inertLines_includes hinclude ?_)
    intro text htext
    obtain ⟨kind, -, hmem⟩ := List.mem_flatMap.1 htext
    exact sourceIncludes_written indent declaration kind text hmem
  have hne (which : Declaration) : "" ∉ kinds.map fun kind => (written indent which kind).source := by
    intro hmem
    obtain ⟨kind, -, hempty⟩ := List.mem_map.1 hmem
    exact source_written_ne indent which kind hempty
  have hcode : Alike
      (namespaceBlock declaration.functionNamespace
        (kinds.map fun kind => (written indent declaration kind).source)).toList
      (namespaceBlock declaration.functionNamespace
        (kinds.map fun kind => (written indent other kind).source)).toList := by
    refine alike_namespaceBlock hwords.namespacePart (hne declaration) (hne other) ?_
    rw [List.forall₂_map_left_iff, List.forall₂_map_right_iff, List.forall₂_same]
    exact fun kind _ => h.alike_source hwords indent kind
  have hincludes (kind : Conversion) : (written indent other kind).sourceIncludes =
      (written indent declaration kind).sourceIncludes := by cases kind <;> rfl
  have hsource := tokenize_alike hpreamble hcode
  simpa only [render, preamble, List.flatMap_map, List.map_map, Function.comp_def, hincludes,
    ← h.functionNamespace_eq, ← h.includeText_eq snake layout, String.append_assoc] using hsource

end Declaration.SameButValues

/-- The values of an enum are confined to the literals of its source file: two enums that differ in
their values only have the same header, and their source files have the same tokens on the same lines. -/
theorem render_confines_values {snake : String → String} (hsnake : KeepsOut '\n' snake)
    {declaration other : Declaration} (hwords : declaration.Worded)
    (hsame : declaration.SameButValues other) (hne : declaration.enumerators ≠ []) (indent : Indent)
    {layout : Layout} (hdirectory : '\n' ∉ layout.includeDir.toList)
    (hextension : '\n' ∉ layout.headerExtension.toList) {target : String}
    (htarget : '\n' ∉ target.toList) :
    ∃ converters others, Registry.builtin.emit indent declaration = .ok converters ∧
      Registry.builtin.emit indent other = .ok others ∧
      (render snake layout target declaration converters).header =
        (render snake layout target other others).header ∧
      (tokenize (render snake layout target declaration converters).source).map Token.onLine =
        (tokenize (render snake layout target other others).source).map Token.onLine := by
  have hinclude := lineFeed_notMem_includeText hsnake hwords.path hdirectory hextension
  refine ⟨_, _, builtin_emit indent hne, builtin_emit indent (hsame.enumerators_ne_nil hne), ?_, ?_⟩
  · rw [← hsame.requested]
    exact hsame.render_header_eq snake indent layout target _
  · rw [← hsame.requested]
    exact hsame.render_source_alike snake indent layout target _ hwords htarget hinclude

/-- An enum whose values are the names of its enumerators. -/
def calm : Declaration :=
  ⟨⟨[⟨"app", .namespaceScope⟩, ⟨"Widget", .typeScope⟩], "Mode"⟩, ⟨true, true⟩,
    [⟨"on", "on", "on", 3⟩, ⟨"off", "off", "off", 4⟩], true, 2⟩

/-- The same enum with values that close literals, open comments and hold line feeds. -/
def hostile : Declaration :=
  { calm with enumerators :=
      [⟨"on", "\"; \x7d /*", "\\", 3⟩, ⟨"off", "*/ \n#define off on", "\\\"\r\n//", 4⟩] }

theorem render_confines_values_hostile :
    calm.Worded ∧ calm.SameButValues hostile ∧
      ∃ converters others, Registry.builtin.emit .tabs calm = .ok converters ∧
        Registry.builtin.emit .tabs hostile = .ok others ∧
        (render snakeCase {} "app\\mode.hpp" calm converters).header =
          (render snakeCase {} "app\\mode.hpp" hostile others).header ∧
        (tokenize (render snakeCase {} "app\\mode.hpp" calm converters).source).map Token.onLine =
          (tokenize (render snakeCase {} "app\\mode.hpp" hostile others).source).map Token.onLine := by
  have hwords : calm.Worded := ⟨by decide +kernel, by decide +kernel⟩
  have hsame : calm.SameButValues hostile := ⟨rfl, rfl, rfl⟩
  exact ⟨hwords, hsame, render_confines_values (keepsOut_snakeCase (by decide)) hwords hsame (by decide)
    .tabs (by decide) (by decide) (by decide)⟩

end EnumConverter
