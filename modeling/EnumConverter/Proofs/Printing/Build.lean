import EnumConverter.Proofs.Printing.Scan

namespace EnumConverter.Printing

open Source Scan Annotation Text

theorem overrides_raw (member : Member) (line : Nat) :
    Overrides.ofFragments (member.raw line).overrideTexts =
      ⟨member.note.value? .string, member.note.value? .json, []⟩ :=
  member.note.ofFragments_comments.trans member.note.ofItems_items

/-- Enumerators with different names are all kept, and nothing is reported. -/
theorem buildEnumerators_members (path : QualifiedPath) (members : List Member) (seen : List String)
    (line : Nat) (hdistinct : (members.map (·.name.text)).Nodup)
    (hseen : ∀ member ∈ members, member.name.text ∉ seen) :
    buildEnumerators path seen (rawEnumerators line members) = (enumerators line members, []) := by
  induction members generalizing seen line with
  | nil => rfl
  | cons member members ih =>
    rw [List.map_cons, List.nodup_cons] at hdistinct
    have hrest : ∀ other ∈ members, other.name.text ∉ seen ++ [member.name.text] := by
      intro other hother hmem
      rw [List.mem_append, List.mem_singleton] at hmem
      obtain hmem | hsame := hmem
      · exact hseen other (by simp [hother]) hmem
      · exact hdistinct.1 (hsame ▸ List.mem_map_of_mem hother)
    have hname : (member.raw line).name ∉ seen := hseen member (by simp)
    have htail : buildEnumerators path (seen ++ [(member.raw line).name])
        (rawEnumerators (line + member.lines.length) members) =
        (enumerators (line + member.lines.length) members, []) :=
      ih (seen ++ [member.name.text]) (line + member.lines.length) hdistinct.2 hrest
    rw [rawEnumerators, buildEnumerators, if_neg hname, overrides_raw, htail]
    rfl

theorem contains_foldl_insert (requests : List Conversion) (set : ConversionSet)
    (kind : Conversion) :
    (requests.foldl .insert set).contains kind = (decide (kind ∈ requests) || set.contains kind) := by
  induction requests generalizing set with
  | nil => simp
  | cons other requests ih =>
    rw [List.foldl_cons, ih, ConversionSet.contains_insert]
    by_cases h : kind = other
    · simp [h]
    · simp [h, Ne.symm h]

theorem ofList_isEmpty {requests : List Conversion} (h : requests ≠ []) :
    (ConversionSet.ofList requests).isEmpty = false := by
  obtain ⟨kind, rest, rfl⟩ := List.exists_cons_of_ne_nil h
  have hmem : kind ∈ (ConversionSet.ofList (kind :: rest)).toList := by
    rw [ConversionSet.mem_toList, ConversionSet.ofList, contains_foldl_insert]
    simp
  rw [ConversionSet.isEmpty, List.isEmpty_eq_false_iff]
  exact List.ne_nil_of_mem hmem

/-- Nothing stands against an annotated enum whose path is new. -/
theorem admission_raw (strict : Bool) {site : Site} (hrequests : site.node.requests ≠ [])
    {declared : List QualifiedPath}
    (hnew : declared.any (QualifiedPath.sameNames ⟨site.scope, site.node.name.text⟩) = false)
    (markerLine : Nat) :
    admission { strict } declared site.raw
      { markerLine, conversions := .ofList site.node.requests } =
      .ok ⟨site.scope, site.node.name.text⟩ := by
  have henumerators : site.raw.enumerators.isEmpty = false := by
    obtain ⟨member, members, hmembers⟩ := List.exists_cons_of_ne_nil (site.node.inhabited hrequests)
    simp [Site.raw, hmembers, rawEnumerators]
  have hname : site.raw.name = some site.node.name.text := rfl
  have hscope : site.raw.scope = site.scope := rfl
  unfold admission
  simp [ofList_isEmpty hrequests, hname, hscope, henumerators, hnew]

/-- An enum of the tree gives the declaration that is expected from it. -/
theorem buildEnum_raw (strict : Bool) (site : Site) {declared : List QualifiedPath}
    (hnew : ∀ declaration ∈ site.declaration?,
      declaration.path.components ∉ declared.map QualifiedPath.components) :
    buildEnum { strict } declared site.raw = (site.declaration?, []) := by
  by_cases hrequests : site.node.requests = []
  · have hdoc : site.raw.doc = [] := by simp [Site.raw, EnumNode.doc, hrequests]
    rw [buildEnum, hdoc, Site.declaration?, if_pos hrequests]
    rfl
  · have hdoc : site.raw.doc = annotationDoc site.node.requests site.line := by
      simp [Site.raw, EnumNode.doc, hrequests]
    have hpath : declared.any (QualifiedPath.sameNames ⟨site.scope, site.node.name.text⟩) = false := by
      have hfresh := hnew (site.node.declaration site.scope site.line)
        (by simp [Site.declaration?, hrequests])
      rw [List.any_eq_false]
      intro other hother hsame
      have hnames : QualifiedPath.components ⟨site.scope, site.node.name.text⟩ = other.components := by
        simpa [QualifiedPath.sameNames] using hsame
      exact hfresh (List.mem_map.2 ⟨other, hother, hnames.symm⟩)
    have henumerators := buildEnumerators_members ⟨site.scope, site.node.name.text⟩
      site.node.members [] (site.node.headerLine site.line + 1) (site.node.distinct hrequests) (by simp)
    have hraw : site.raw.enumerators =
        rawEnumerators (site.node.headerLine site.line + 1) site.node.members := rfl
    have hread : ({ strict } : BuildSettings).marker.directives? site.raw.doc.contentLines =
        some ⟨site.line + 1, .ofList site.node.requests, []⟩ := by
      rw [hdoc]
      exact directives?_annotationDoc site.node.requests site.line
    unfold buildEnum
    rw [hread]
    dsimp only
    rw [admission_raw strict hrequests hpath]
    dsimp only
    rw [hraw, henumerators]
    simp [Site.declaration?, hrequests, directiveDiagnostics, EnumNode.declaration, Site.raw]

/-- Enums with different paths are all declared, behind those that are declared already. -/
theorem buildEnums_raw (strict : Bool) (found : List Site) {declared : List QualifiedPath}
    (hdistinct : (declared.map QualifiedPath.components ++
      (found.filterMap Site.declaration?).map (·.path.components)).Nodup) :
    buildEnums { strict } declared (found.map Site.raw) =
      ⟨found.filterMap Site.declaration?, []⟩ := by
  induction found generalizing declared with
  | nil => rfl
  | cons site found ih =>
    have hnew : ∀ declaration ∈ site.declaration?,
        declaration.path.components ∉ declared.map QualifiedPath.components := by
      intro declaration hsite hmem
      have hlater : declaration.path.components ∈
          ((site :: found).filterMap Site.declaration?).map (·.path.components) :=
        List.mem_map_of_mem (List.mem_filterMap.2 ⟨site, by simp, hsite⟩)
      exact (List.nodup_append.1 hdistinct).2.2 _ hmem _ hlater rfl
    have hrest : ((declared ++ site.declaration?.toList.map (·.path)).map QualifiedPath.components ++
        (found.filterMap Site.declaration?).map (·.path.components)).Nodup := by
      cases hsite : site.declaration? with
      | none => simpa [hsite] using hdistinct
      | some declaration => simpa [hsite] using hdistinct
    rw [List.map_cons, buildEnums, buildEnum_raw strict site hnew]
    dsimp only
    rw [ih hrest]
    cases hsite : site.declaration? <;> simp [hsite]

/-- Building a printed tree gives the declarations that the tree stands for, in the order in which they
are written and each on its line, and reports nothing. -/
theorem build_print (strict : Bool) (items : List Item)
    (hdistinct : ((declarations items).map (·.path.components)).Nodup) :
    build { strict } (print items) = { declarations := declarations items, diagnostics := [] } := by
  have henums : buildEnums { strict } [] ((sites [] 1 items).map Site.raw) =
      ⟨declarations items, []⟩ :=
    buildEnums_raw strict (sites [] 1 items) hdistinct
  unfold build
  rw [scan_print]
  dsimp only
  rw [henums]
  simp [sortDiagnostics]

/-- A header with every kind of item, note and override. -/
def sampleHeader : List Item :=
  [.block (.namespaceOf [⟨⟨"net", by decide⟩, by decide⟩, ⟨⟨"enum", by decide⟩, by decide⟩])
    [.block (.structOf ⟨⟨"Link", by decide⟩, by decide⟩)
      [.enumeration
        { requests := [.json, .string]
          isScoped := true
          name := ⟨⟨"State", by decide⟩, by decide⟩
          members :=
            [⟨⟨"Up", by decide⟩, .double .json ⟨"a\\\"b", by decide⟩ ⟨" // */ ", by decide⟩ true⟩,
             ⟨⟨"namespace", by decide⟩, .empty⟩]
          notKey := by decide
          inhabited := by decide
          distinct := by decide }],
     .block .linkage [.block (.namespaceOf []) []]],
   .enumeration
    { requests := []
      isScoped := false
      name := ⟨⟨"State", by decide⟩, by decide⟩
      members := []
      notKey := by decide
      inhabited := by decide
      distinct := by decide }]

theorem build_print_sampleHeader :
    ((declarations sampleHeader).map (·.path.components)).Nodup ∧
      print sampleHeader =
        "namespace net::enum \x7b\nstruct Link \x7b\n" ++
        "/**\n * @cpp_codegen\n * json_serialization\n * string_serialization\n */\n" ++
        "enum class State \x7b\nUp, //< \"a\\\\\\\"b\"json\n//< \" // */ \"s\nnamespace, //<\n\x7d;\n" ++
        "\x7d;\nextern \"C\" \x7b\nnamespace \x7b\n\x7d\n\x7d\n\x7d\nenum State \x7b\n\x7d;\n" ∧
      build { strict := true } (print sampleHeader) =
        { declarations :=
            [{ path :=
                ⟨[⟨"net", .namespaceScope⟩, ⟨"enum", .namespaceScope⟩, ⟨"Link", .typeScope⟩], "State"⟩
               requested := ⟨true, true⟩
               enumerators :=
                [⟨"Up", " // */ ", "a\\\"b", 9⟩, ⟨"namespace", "namespace", "namespace", 11⟩]
               isScoped := true
               line := 8 }] } :=
  ⟨by decide, by decide +kernel, build_print true sampleHeader (by decide)⟩

end EnumConverter.Printing
