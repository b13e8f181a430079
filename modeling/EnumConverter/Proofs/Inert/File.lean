import EnumConverter.Emit.FilePair
import EnumConverter.Proofs.Build.Words
import EnumConverter.Emit.Registry
import EnumConverter.Proofs.Inert.Converter
import EnumConverter.Proofs.Inert.Preamble
import EnumConverter.Proofs.Text.SnakeCase

namespace EnumConverter

open Source Text Scan Emit

theorem mem_of_mem_stripped {test : Char → Bool} {cs : List Char} {c : Char}
    (h : c ∈ ((cs.dropWhile test).reverse.dropWhile test).reverse) : c ∈ cs := by
  rw [List.mem_reverse] at h
  have hstart := (List.dropWhile_sublist test).subset h
  rw [List.mem_reverse] at hstart
  exact (List.dropWhile_sublist test).subset hstart

theorem lineFeed_notMem_bareInclude {target : String} (h : '\n' ∉ target.toList) :
    '\n' ∉ (bareInclude target).toList := by
  rw [bareInclude, String.toList_ofList]
  exact fun hfeed => h (mem_of_mem_stripped hfeed)

theorem lineFeed_notMem_directory {layout : Layout} (h : '\n' ∉ layout.includeDir.toList) :
    '\n' ∉ layout.directory.toList := by
  rw [Layout.directory, trimSlashes, String.toList_ofList]
  exact fun hfeed => h (mem_of_mem_stripped hfeed)

/-- The name of a file has only characters of names, and those that snake case makes. -/
theorem notMem_stem {c : Char} (hrest : isIdentRest c = false) {snake : String → String}
    (hsnake : KeepsOut c snake) {declaration : Declaration}
    (h : ∀ name ∈ declaration.path.components, isIdentifier name.toList = true) (layout : Layout) :
    c ∉ (layout.stem snake declaration).toList := by
  have hwords : ∀ name ∈ declaration.path.components, c ∉ name.toList := by
    intro name hname hmem
    rw [isIdentifier_all (h name hname) c hmem] at hrest
    cases hrest
  have hshort : c ∉ declaration.name.toList :=
    hwords _ (by simp [QualifiedPath.components, Declaration.name])
  have hqualified : c ∉ (declaration.path.joinedBy "_").toList := by
    refine notMem_joined ?_ hwords
    have hne : c ≠ '_' := by
      rintro rfl
      cases hrest
    simpa using hne
  unfold Layout.stem
  cases layout.naming with
  | short =>
    cases layout.fileCase with
    | preserve => exact hshort
    | snake => exact hsnake _ hshort
  | qualified =>
    cases layout.fileCase with
    | preserve => exact hqualified
    | snake => exact hsnake _ hqualified

theorem lineFeed_notMem_includeText {snake : String → String} (hsnake : KeepsOut '\n' snake)
    {declaration : Declaration}
    (h : ∀ name ∈ declaration.path.components, isIdentifier name.toList = true) {layout : Layout}
    (hdirectory : '\n' ∉ layout.includeDir.toList)
    (hextension : '\n' ∉ layout.headerExtension.toList) :
    '\n' ∉ (layout.includeText snake declaration).toList := by
  have hstem := notMem_stem (by decide) hsnake h layout
  have hbase := lineFeed_notMem_directory hdirectory
  unfold Layout.includeText Layout.fileName
  dsimp only
  split <;> simp [hstem, hbase, hextension]

theorem Declaration.Spelled.lineFeed_notMem_includeText {declaration : Declaration}
    (h : declaration.Spelled) {snake : String → String} (hsnake : KeepsOut '\n' snake)
    {layout : Layout} (hdirectory : '\n' ∉ layout.includeDir.toList)
    (hextension : '\n' ∉ layout.headerExtension.toList) :
    '\n' ∉ (layout.includeText snake declaration).toList :=
  EnumConverter.lineFeed_notMem_includeText hsnake h.components_words hdirectory hextension

namespace Scan

theorem inertLines_banner {target : String} (h : '\n' ∉ target.toList) :
    InertLines (banner target).toList := by
  have hstart : "// Generated by cpp-codegen from " = "//" ++ " Generated by cpp-codegen from " := by
    decide
  have hfinish : ". Do not edit.\n" = ". Do not edit." ++ "\n" := by decide
  have htext : banner target = "//" ++ (" Generated by cpp-codegen from " ++ bareInclude target ++
      ". Do not edit.") ++ "\n" := by
    unfold banner
    rw [hstart, hfinish]
    simp only [String.append_assoc]
  have hfeed : '\n' ∉ (" Generated by cpp-codegen from " ++ bareInclude target ++
      ". Do not edit.").toList := by
    rw [String.toList_append, String.toList_append, List.mem_append, List.mem_append, not_or, not_or]
    exact ⟨⟨by decide, lineFeed_notMem_bareInclude h⟩, by decide⟩
  rw [htext]
  exact .comment hfeed

/-- An include line is a directive with no characters but those of its target and a few fixed ones. -/
theorem includeLine_eq (target : String) :
    ∃ text, (includeLine target).toList = '#' :: (text ++ ['\n']) ∧
      ∀ c ∉ "include \"".toList, c ∉ target.toList → c ∉ text := by
  unfold includeLine
  split
  · exact ⟨"include ".toList ++ target.toList, by simp, by simp_all⟩
  · exact ⟨"include ".toList ++ target.toList, by simp, by simp_all⟩
  · exact ⟨"include \"".toList ++ target.toList ++ ['"'], by simp, by simp_all⟩

theorem inertLines_includeLine {target : String} (hfeed : '\n' ∉ target.toList)
    (hbackslash : '\\' ∉ target.toList) : InertLines (includeLine target).toList := by
  obtain ⟨text, htext, hnotMem⟩ := includeLine_eq target
  rw [htext]
  exact .directive (hnotMem _ (by decide) hfeed) (hnotMem _ (by decide) hbackslash)

/-- A target may end with a backslash, so that the include line takes the line feed along. -/
theorem inertLines_includeLine_feed {target : String} (hfeed : '\n' ∉ target.toList) :
    InertLines (includeLine target ++ "\n").toList := by
  obtain ⟨text, htext, hnotMem⟩ := includeLine_eq target
  have hlines : (includeLine target ++ "\n").toList = '#' :: (text ++ ['\n', '\n']) := by
    simp [htext]
  rw [hlines]
  exact .directive_feed (hnotMem _ (by decide) hfeed)

theorem InertLines.joined {texts : List String} (h : ∀ text ∈ texts, InertLines text.toList) :
    InertLines (joined "" texts).toList := by
  fun_induction Text.joined "" texts with
  | case1 => exact .nil
  | case2 text => exact h text (by simp)
  | case3 text next texts ih =>
    have hfirst : InertLines (text ++ "").toList := by simpa using h text (by simp)
    exact hfirst.followed (ih fun other hother => h other (by simp [hother]))

theorem mem_sortedTexts {texts : List String} {text : String} :
    text ∈ sortedTexts texts ↔ text ∈ texts := by
  simp [sortedTexts]

/-- The include lines of a file, where the first one has a target that the user chose. -/
theorem inertLines_includes {target : String} {targets : List String}
    (htarget : '\n' ∉ target.toList)
    (htargets : ∀ other ∈ targets, '\n' ∉ other.toList ∧ '\\' ∉ other.toList) :
    InertLines (includeLine target ++ includeBlock targets).toList := by
  rw [includeBlock, ← String.append_assoc]
  refine (inertLines_includeLine_feed htarget).followed (.joined fun line hline => ?_)
  obtain ⟨other, hother, rfl⟩ := List.mem_map.1 hline
  obtain ⟨hfeed, hbackslash⟩ := htargets other (mem_sortedTexts.1 hother)
  exact inertLines_includeLine hfeed hbackslash

theorem nests_namespaceHeader {names : List String}
    (hnames : ∀ name ∈ names, isIdentifier name.toList = true) (hinline : "inline" ∉ names) :
    Nests 0 1 (namespaceHeader names).toList := by
  intro here inner outer doc hinner
  exact ⟨_, ⟨namespaceSegments names, here.position.line⟩ :: inner, [], by simpa using hinner,
    passes_namespaceHeader here (inner ++ outer) doc hnames hinline⟩

theorem inert_joined {separator : String} (hseparator : Inert separator.toList)
    {texts : List String} (h : ∀ text ∈ texts, Inert text.toList) :
    Inert (joined separator texts).toList := by
  fun_induction joined separator texts with
  | case1 => exact .nil 0
  | case2 text => exact h text (by simp)
  | case3 text next texts ih =>
    exact ((h text (by simp)).followed hseparator).followed
      (ih fun other hother => h other (by simp [hother]))

/-- The end of a namespace with the comment that names it. -/
theorem nests_namespaceEnd {scope : String} (h : '\n' ∉ scope.toList) :
    Nests 1 0 ("\n\x7d  // namespace " ++ scope ++ "\n").toList := by
  have hsplit : "\n\x7d  // namespace " = "\n\x7d  " ++ ("//" ++ " namespace ") := by decide
  have htext : "\n\x7d  // namespace " ++ scope ++ "\n" =
      "\n\x7d  " ++ ("//" ++ (" namespace " ++ scope) ++ "\n") := by
    rw [hsplit]
    simp only [String.append_assoc]
  have hcomment : '\n' ∉ (" namespace " ++ scope).toList := by simp [h]
  rw [htext]
  exact (nests_fixed (by decide)).followed (inert_comment hcomment)

theorem inert_namespaceBlock {names fragments : List String}
    (hnames : ∀ name ∈ names, isIdentifier name.toList = true) (hinline : "inline" ∉ names)
    (hfragments : ∀ fragment ∈ fragments, Inert fragment.toList) :
    Inert (namespaceBlock (joined "::" names) fragments).toList := by
  have hbody : Inert (joined "\n" (fragments.filter (· ≠ ""))).toList :=
    inert_joined (nests_fixed (by decide)) fun fragment hfragment =>
      hfragments fragment (List.mem_filter.1 hfragment).1
  unfold namespaceBlock
  dsimp only
  split
  · exact Nests.followed (nests_fixed (by decide)) hbody
  · rename_i hscope
    obtain ⟨name, rest, rfl⟩ : ∃ name rest, names = name :: rest :=
      List.exists_cons_of_ne_nil fun hnil => hscope (by rw [hnil]; rfl)
    have hfeed : '\n' ∉ (joined "::" (name :: rest)).toList :=
      notMem_joined (by decide) fun other hother =>
        lineFeed_notMem_of_isIdentifier (hnames other hother)
    have hopen : "\nnamespace " = "\n" ++ "namespace " := by decide
    have hclose : " \x7b\n\n" = " \x7b" ++ "\n\n" := by decide
    have htext (body : String) : "\nnamespace " ++ joined "::" (name :: rest) ++ " \x7b\n\n" ++ body ++
          "\n\x7d  // namespace " ++ joined "::" (name :: rest) ++ "\n" =
        "\n" ++ namespaceHeader (name :: rest) ++ "\n\n" ++ body ++
          ("\n\x7d  // namespace " ++ joined "::" (name :: rest) ++ "\n") := by
      rw [hopen, hclose, namespaceHeader]
      simp only [String.append_assoc]
    rw [htext]
    have hheader := nests_namespaceHeader hnames hinline
    have hstart : Nests 0 1 ("\n" ++ namespaceHeader (name :: rest) ++ "\n\n").toList :=
      (Nests.followed (nests_fixed (by decide)) hheader).followed (nests_code 1 (by decide))
    exact (hstart.followed (hbody.inside 1)).followed (nests_namespaceEnd hfeed)

end Scan

/-- A converter in which the scanner finds nothing, with targets to include that stay on their lines. -/
structure Emit.Converter.Quiet (converter : Converter) : Prop where
  header : Inert converter.header.toList
  source : Inert converter.source.toList
  headerIncludes : ∀ target ∈ converter.headerIncludes, '\n' ∉ target.toList ∧ '\\' ∉ target.toList
  sourceIncludes : ∀ target ∈ converter.sourceIncludes, '\n' ∉ target.toList ∧ '\\' ∉ target.toList

theorem sourceIncludes_written (indent : Indent) (declaration : Declaration) (kind : Conversion) :
    ∀ target ∈ (written indent declaration kind).sourceIncludes,
      '\n' ∉ target.toList ∧ '\\' ∉ target.toList := by
  cases kind with
  | string =>
    change ∀ target ∈ [], _
    simp
  | json =>
    change ∀ target ∈ ["<stdexcept>", "<string>"], _
    decide

namespace Declaration.Spelled

variable {declaration : Declaration} (h : declaration.Spelled)
include h

theorem quiet_written (indent : Indent) (kind : Conversion) :
    (written indent declaration kind).Quiet := by
  cases kind with
  | string =>
    refine ⟨h.inert_stringHeader indent, h.inert_stringSource indent, ?_,
      sourceIncludes_written indent declaration .string⟩
    change ∀ target ∈ ["<string_view>"], _
    decide
  | json =>
    refine ⟨h.inert_jsonHeader indent, h.inert_jsonSource indent, ?_,
      sourceIncludes_written indent declaration .json⟩
    change ∀ target ∈ ["<nlohmann/json.hpp>"], _
    decide

/-- The functions stand in namespaces that can be opened again. -/
theorem inert_functions {fragments : List String}
    (hfragments : ∀ fragment ∈ fragments, Inert fragment.toList) :
    Inert (namespaceBlock declaration.functionNamespace fragments).toList := by
  have hsegment : ∀ name ∈ declaration.path.scope.namespacePart.names,
      ∃ segment ∈ declaration.path.scope, segment.kind = .namespaceScope ∧ segment.name = name := by
    intro name hname
    obtain ⟨segment, hsegment, rfl⟩ := List.mem_map.1 hname
    have hkind := List.all_eq_true.1 List.all_takeWhile segment hsegment
    exact ⟨segment, List.takeWhile_subset _ hsegment, by simpa using hkind, rfl⟩
  refine inert_namespaceBlock (fun name hname => ?_) (fun hname => ?_) hfragments
  · obtain ⟨segment, hmem, -, rfl⟩ := hsegment name hname
    exact (h.scope segment hmem).isWord
  · obtain ⟨segment, hmem, hkind, hinline⟩ := hsegment _ hname
    exact (h.scope segment hmem).notInline hkind hinline

variable {snake : String → String} {layout : Layout} {target : String} {converters : List Converter}
  (htarget : '\n' ∉ target.toList) (hconverters : ∀ converter ∈ converters, converter.Quiet)
include htarget hconverters

theorem scan_header : scan (render snake layout target declaration converters).header = {} := by
  have hpragma : InertLines "#pragma once\n\n".toList := by
    have hsplit : "#pragma once\n\n".toList = '#' :: ("pragma once".toList ++ ['\n']) ++ ['\n'] := by
      decide
    rw [hsplit]
    exact (InertLines.directive (by decide) (by decide)).append .feed
  have hincludes : ∀ other ∈ converters.flatMap (·.headerIncludes),
      '\n' ∉ other.toList ∧ '\\' ∉ other.toList := by
    intro other hother
    obtain ⟨converter, hconverter, hmem⟩ := List.mem_flatMap.1 hother
    exact (hconverters converter hconverter).headerIncludes other hmem
  have hcode := h.inert_functions (List.forall_mem_map.2 fun converter hconverter =>
    (hconverters converter hconverter).header)
  have htext : (render snake layout target declaration converters).header =
      banner target ++ "#pragma once\n\n" ++
        (includeLine target ++ includeBlock (converters.flatMap (·.headerIncludes))) ++
        namespaceBlock declaration.functionNamespace (converters.map (·.header)) := by
    simp only [render, String.append_assoc]
  rw [htext]
  exact scan_inert (((inertLines_banner htarget).followed hpragma).followed
    (inertLines_includes htarget hincludes)) hcode

theorem scan_source (hinclude : '\n' ∉ (layout.includeText snake declaration).toList) :
    scan (render snake layout target declaration converters).source = {} := by
  have hincludes : ∀ other ∈ converters.flatMap (·.sourceIncludes),
      '\n' ∉ other.toList ∧ '\\' ∉ other.toList := by
    intro other hother
    obtain ⟨converter, hconverter, hmem⟩ := List.mem_flatMap.1 hother
    exact (hconverters converter hconverter).sourceIncludes other hmem
  have hcode := h.inert_functions (List.forall_mem_map.2 fun converter hconverter =>
    (hconverters converter hconverter).source)
  have htext : (render snake layout target declaration converters).source =
      banner target ++ (includeLine (layout.includeText snake declaration) ++
        includeBlock (converters.flatMap (·.sourceIncludes))) ++
        namespaceBlock declaration.functionNamespace (converters.map (·.source)) := by
    simp only [render, String.append_assoc]
  rw [htext]
  exact scan_inert ((inertLines_banner htarget).followed (inertLines_includes hinclude hincludes)) hcode

end Declaration.Spelled

/-- The converters of a declaration that is built from any source give files in which the scanner
finds neither enums nor errors. -/
theorem scan_render_build {snake : String → String} (hsnake : KeepsOut '\n' snake)
    (settings : BuildSettings) (source : String) {declaration : Declaration}
    (hdeclaration : declaration ∈ (build settings source).declarations) (indent : Indent)
    {layout : Layout} (hdirectory : '\n' ∉ layout.includeDir.toList)
    (hextension : '\n' ∉ layout.headerExtension.toList) {target : String}
    (htarget : '\n' ∉ target.toList) :
    ∃ converters, Registry.builtin.emit indent declaration = .ok converters ∧
      scan (render snake layout target declaration converters).header = {} ∧
      scan (render snake layout target declaration converters).source = {} := by
  have h := build_spelled settings source declaration hdeclaration
  have hconverters : ∀ converter ∈ declaration.requested.toList.map (written indent declaration),
      converter.Quiet :=
    List.forall_mem_map.2 fun kind _ => h.quiet_written indent kind
  exact ⟨_, builtin_emit indent h.inhabited, h.scan_header htarget hconverters,
    h.scan_source htarget hconverters (h.lineFeed_notMem_includeText hsnake hdirectory hextension)⟩

/-- A header with an enum whose override looks like code. -/
def sampleSource : String :=
  "namespace app \x7b\n/// @cpp_codegen\n/// string_serialization\nenum class Mode \x7b\n" ++
    "  class,  //< \"\x7d /* \\\"\"s\n  enum\n\x7d;\n\x7d\n"

/-- The declaration of the enum in `sampleSource`. -/
def sampleDeclaration : Declaration :=
  ⟨⟨[⟨"app", .namespaceScope⟩], "Mode"⟩, ⟨true, false⟩,
    [⟨"class", "\x7d /* \"", "class", 5⟩, ⟨"enum", "enum", "enum", 6⟩], true, 4⟩

/-- A layout with file names in snake case. -/
def sampleLayout : Layout where
  naming := .qualified
  fileCase := .snake

theorem scan_render_build_sampleSource :
    sampleDeclaration ∈ (build {} sampleSource).declarations ∧
      ∃ converters, Registry.builtin.emit .tabs sampleDeclaration = .ok converters ∧
        let files := render snakeCase sampleLayout "<app\\mode.hpp\\" sampleDeclaration converters
        scan files.header = {} ∧ scan files.source = {} := by
  have hmem : sampleDeclaration ∈ (build {} sampleSource).declarations := by decide +kernel
  exact ⟨hmem, scan_render_build (keepsOut_snakeCase (by decide)) {} sampleSource hmem .tabs
    (by decide) (by decide) (by decide)⟩

end EnumConverter
