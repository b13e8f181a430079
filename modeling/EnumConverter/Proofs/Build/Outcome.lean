import EnumConverter.Proofs.Annotation.Lines
import EnumConverter.Proofs.Build.Enumerators

namespace EnumConverter

open Source Scan Annotation

namespace Scan.RawEnum

variable (marker : Marker) (settings : BuildSettings) (earlier : List RawEnum) (raw : RawEnum)

/-- The documentation of an enum has a marker line. -/
def Annotated : Prop :=
  ∃ content ∈ raw.doc.contentLines, marker.opens content = true

instance : Decidable (raw.Annotated marker) :=
  inferInstanceAs (Decidable (∃ content ∈ raw.doc.contentLines, marker.opens content = true))

/-- The lines of the annotation of an enum below its marker. -/
def directiveLines : List ContentLine :=
  marker.directiveLines raw.doc.contentLines

/-- The lines of the annotation of an enum that are not understood. -/
def unrecognizedLines : List ContentLine :=
  marker.unrecognizedLines raw.doc.contentLines

/-- The names around an enum, outermost first, and its own name. -/
def components : List String :=
  raw.scope.names ++ raw.name.toList

/-- An enum that can be declared, whatever other enums there are. -/
structure Eligible : Prop where
  annotated : raw.Annotated settings.marker
  requests : ∃ content ∈ raw.directiveLines settings.marker, (request? content).isSome = true
  named : raw.name.isSome = true
  inhabited : raw.enumerators ≠ []
  recognized : settings.strict = true → raw.unrecognizedLines settings.marker = []

instance : Decidable (raw.Eligible settings) :=
  decidable_of_iff
    (raw.Annotated settings.marker ∧
      (∃ content ∈ raw.directiveLines settings.marker, (request? content).isSome = true) ∧
      raw.name.isSome = true ∧ raw.enumerators ≠ [] ∧
      (settings.strict = true → raw.unrecognizedLines settings.marker = []))
    ⟨fun ⟨hannotated, hrequests, hnamed, hinhabited, hrecognized⟩ =>
        ⟨hannotated, hrequests, hnamed, hinhabited, hrecognized⟩,
      fun h => ⟨h.annotated, h.requests, h.named, h.inhabited, h.recognized⟩⟩

/-- An earlier enum that can be declared has the same names. -/
def Taken : Prop :=
  ∃ other ∈ earlier, other.Eligible settings ∧ other.components = raw.components

instance : Decidable (raw.Taken settings earlier) :=
  inferInstanceAs (Decidable (∃ other ∈ earlier, other.Eligible settings ∧
    other.components = raw.components))

/-- The kinds of diagnostics that a dropped enum leaves at its definition, the first that applies. -/
def dropKinds : List DiagnosticKind :=
  [.emptyDirectiveSet, .anonymousEnum, .emptyEnum, .duplicateQualifiedName]

/-- What stands against declaring an enum, by the kind of the diagnostic that says so. -/
def Fault : DiagnosticKind → Prop
  | .emptyDirectiveSet => ∀ content ∈ raw.directiveLines settings.marker, request? content = none
  | .anonymousEnum => raw.name = none
  | .emptyEnum => raw.enumerators = []
  | .duplicateQualifiedName => raw.Taken settings earlier
  | _ => False

instance (kind : DiagnosticKind) : Decidable (raw.Fault settings earlier kind) :=
  match kind with
  | .emptyDirectiveSet => inferInstanceAs
      (Decidable (∀ content ∈ raw.directiveLines settings.marker, request? content = none))
  | .anonymousEnum => inferInstanceAs (Decidable (raw.name = none))
  | .emptyEnum => inferInstanceAs (Decidable (raw.enumerators = []))
  | .duplicateQualifiedName => inferInstanceAs (Decidable (raw.Taken settings earlier))
  | .unbalancedScope | .unrecognizedDirective | .malformedOverride | .duplicateEnumerator =>
    inferInstanceAs (Decidable False)

/-- The first fault of an enum in the order of `dropKinds`. -/
def firstFault? : Option DiagnosticKind :=
  dropKinds.find? fun kind => raw.Fault settings earlier kind

/-- The reports of the lines that are not understood. -/
def directiveWarnings : List Diagnostic :=
  (raw.unrecognizedLines marker).map fun content =>
    { kind := .unrecognizedDirective
      message := "unrecognized directive '" ++ Annotation.normalize content.text ++ "' on enum '" ++
        displayName raw.name ++ "'"
      position := ⟨content.line, 1⟩ }

/-- A declaration says what the enum and its comments say. -/
structure Declares (declaration : Declaration) : Prop where
  scope : declaration.path.scope = raw.scope
  name : raw.name = some declaration.path.name
  requested : ∀ kind, declaration.requests kind = true ↔
    ∃ content ∈ raw.directiveLines marker, request? content = some kind
  enumerators : declaration.enumerators =
    (firstOccurrences (·.name) raw.enumerators).map fun enumerator =>
      enumeratorOf enumerator enumerator.overrides
  isScoped : declaration.isScoped = raw.isScoped
  line : declaration.line = raw.position.line

/-- What an enum gives behind the enums `earlier`. -/
inductive Outcome : Option Declaration × List Diagnostic → Prop
  | unmarked (hannotated : ¬ raw.Annotated settings.marker) : Outcome (none, [])
  | suppressed (hannotated : raw.Annotated settings.marker) (hstrict : settings.strict = true)
      (hlines : raw.unrecognizedLines settings.marker ≠ []) :
      Outcome (none, raw.directiveWarnings settings.marker)
  | dropped (hannotated : raw.Annotated settings.marker)
      (hrecognized : settings.strict = true → raw.unrecognizedLines settings.marker = [])
      {diagnostic : Diagnostic} (hposition : diagnostic.position = raw.position)
      (hfault : raw.firstFault? settings earlier = some diagnostic.kind) :
      Outcome (none, raw.directiveWarnings settings.marker ++ [diagnostic])
  | declared (hannotated : raw.Annotated settings.marker)
      (hrecognized : settings.strict = true → raw.unrecognizedLines settings.marker = [])
      (hfault : raw.firstFault? settings earlier = none)
      {declaration : Declaration} (hdeclares : raw.Declares settings.marker declaration) :
      Outcome (some declaration, raw.directiveWarnings settings.marker ++
        (buildEnumerators declaration.path [] raw.enumerators).2)

end Scan.RawEnum

open RawEnum

variable {settings : BuildSettings} {declared : List QualifiedPath} {earlier : List RawEnum}
  {raw : RawEnum} {directives : Directives}

theorem isEmpty_conversions_iff (earlier : List RawEnum)
    (h : settings.marker.directives? raw.doc.contentLines = some directives) :
    directives.conversions.isEmpty = true ↔ raw.Fault settings earlier .emptyDirectiveSet := by
  have hcontains := Marker.contains_of_directives? h
  rw [ConversionSet.isEmpty, List.isEmpty_iff]
  constructor
  · intro hempty content hcontent
    cases hrequest : request? content with
    | none => rfl
    | some kind =>
      have hmem : kind ∈ directives.conversions.toList :=
        ConversionSet.mem_toList.2 ((hcontains kind).2 ⟨content, hcontent, hrequest⟩)
      rw [hempty] at hmem
      cases hmem
  · intro hfault
    rw [List.eq_nil_iff_forall_not_mem]
    intro kind hkind
    obtain ⟨content, hcontent, hrequest⟩ := (hcontains kind).1 (ConversionSet.mem_toList.1 hkind)
    rw [hfault content hcontent] at hrequest
    cases hrequest

theorem unrecognized_eq_nil_iff
    (h : settings.marker.directives? raw.doc.contentLines = some directives) :
    directives.unrecognized = [] ↔ raw.unrecognizedLines settings.marker = [] := by
  rw [Marker.unrecognized_of_directives? h, List.map_eq_nil_iff]
  rfl

/-- The paths of the declarations so far are those of the earlier enums that can be declared. -/
def Declared (settings : BuildSettings) (earlier : List RawEnum) (declared : List QualifiedPath) :
    Prop :=
  ∀ names, names ∈ declared.map QualifiedPath.components ↔
    ∃ other ∈ earlier, other.Eligible settings ∧ other.components = names

theorem Declared.any_sameNames_iff (h : Declared settings earlier declared) {name : String}
    (hname : raw.name = some name) :
    declared.any (QualifiedPath.sameNames ⟨raw.scope, name⟩) = true ↔ raw.Taken settings earlier := by
  have hnames : raw.components = (QualifiedPath.mk raw.scope name).components := by
    simp [components, QualifiedPath.components, hname]
  rw [Taken, hnames, ← h, List.any_eq_true, List.mem_map]
  constructor
  · rintro ⟨other, hother, hsame⟩
    exact ⟨other, hother, (of_decide_eq_true hsame).symm⟩
  · rintro ⟨other, hother, hsame⟩
    exact ⟨other, hother, decide_eq_true hsame.symm⟩

/-- A fault is the first one if none of the kinds before it is one. -/
theorem firstFault?_eq_some {kind : DiagnosticKind} (before after : List DiagnosticKind)
    (hkinds : dropKinds = before ++ kind :: after)
    (hbefore : ∀ other ∈ before, ¬ raw.Fault settings earlier other)
    (hkind : raw.Fault settings earlier kind) : raw.firstFault? settings earlier = some kind := by
  rw [firstFault?, hkinds, List.find?_append, List.find?_eq_none.2 (by simpa using hbefore)]
  simp [hkind]

/-- Unless the directives are at fault, an enum is admitted or dropped for its first fault. -/
theorem admission_lenient (hdeclared : Declared settings earlier declared)
    (h : settings.marker.directives? raw.doc.contentLines = some directives)
    (hrecognized : settings.strict = true → raw.unrecognizedLines settings.marker = []) :
    (∃ rejection diagnostic, admission settings declared raw directives = .error rejection ∧
      rejection.diagnostic? raw = some diagnostic ∧ diagnostic.position = raw.position ∧
      raw.firstFault? settings earlier = some diagnostic.kind) ∨
    ∃ name, raw.name = some name ∧ raw.firstFault? settings earlier = none ∧
      admission settings declared raw directives = .ok ⟨raw.scope, name⟩ := by
  have hconversions := isEmpty_conversions_iff earlier h
  have hlenient : (settings.strict && !directives.unrecognized.isEmpty) = false := by
    rw [Bool.and_eq_false_imp]
    intro hstrict
    simp [(unrecognized_eq_nil_iff h).2 (hrecognized hstrict)]
  -- The checks in the order in which they are made.
  by_cases hempty : raw.Fault settings earlier .emptyDirectiveSet
  · have hadmission : admission settings declared raw directives = .error .noConversion := by
      simp [admission, hlenient, hconversions.2 hempty]
    exact .inl ⟨_, _, hadmission, rfl, rfl, firstFault?_eq_some [] _ rfl (by simp) hempty⟩
  have hrequests : directives.conversions.isEmpty = false :=
    Bool.eq_false_iff.2 (mt hconversions.1 hempty)
  cases hname : raw.name with
  | none =>
    have hadmission : admission settings declared raw directives = .error .noName := by
      simp [admission, hlenient, hrequests, hname]
    exact .inl ⟨_, _, hadmission, rfl, rfl,
      firstFault?_eq_some [.emptyDirectiveSet] _ rfl (by simpa using hempty) hname⟩
  | some name =>
    have hnamed : ¬ raw.Fault settings earlier .anonymousEnum := by
      change ¬ raw.name = none
      simp [hname]
    by_cases henumerators : raw.Fault settings earlier .emptyEnum
    · have hnone : raw.enumerators = [] := henumerators
      have hadmission : admission settings declared raw directives = .error .noEnumerators := by
        simp [admission, hlenient, hrequests, hname, hnone]
      exact .inl ⟨_, _, hadmission, rfl, rfl,
        firstFault?_eq_some [.emptyDirectiveSet, .anonymousEnum] _ rfl
          (by simpa using ⟨hempty, hnamed⟩) henumerators⟩
    have hsome : raw.enumerators ≠ [] := henumerators
    have hpath := hdeclared.any_sameNames_iff hname
    by_cases htaken : raw.Fault settings earlier .duplicateQualifiedName
    · have hadmission : admission settings declared raw directives =
          .error (.alreadyDeclared ⟨raw.scope, name⟩) := by
        simp [admission, hlenient, hrequests, hname, hsome, hpath.2 htaken]
      exact .inl ⟨_, _, hadmission, rfl, rfl,
        firstFault?_eq_some [.emptyDirectiveSet, .anonymousEnum, .emptyEnum] _ rfl
          (by simpa using ⟨hempty, hnamed, henumerators⟩) htaken⟩
    · have hnew : declared.any (QualifiedPath.sameNames ⟨raw.scope, name⟩) = false :=
        Bool.eq_false_iff.2 (mt hpath.1 htaken)
      have hadmission : admission settings declared raw directives = .ok ⟨raw.scope, name⟩ := by
        simp [admission, hlenient, hrequests, hname, hsome, hnew]
      have hfault : raw.firstFault? settings earlier = none := by
        rw [firstFault?, List.find?_eq_none]
        simpa [dropKinds] using ⟨hempty, hnamed, henumerators, htaken⟩
      exact .inr ⟨name, rfl, hfault, hadmission⟩

theorem directiveDiagnostics_eq
    (h : settings.marker.directives? raw.doc.contentLines = some directives) :
    directiveDiagnostics raw directives = raw.directiveWarnings settings.marker := by
  rw [directiveDiagnostics, Marker.unrecognized_of_directives? h, List.map_map]
  rfl

theorem buildEnum_rejected (h : settings.marker.directives? raw.doc.contentLines = some directives)
    {rejection : Rejection}
    (hadmission : admission settings declared raw directives = .error rejection) :
    buildEnum settings declared raw =
      (none, raw.directiveWarnings settings.marker ++ (rejection.diagnostic? raw).toList) := by
  unfold buildEnum
  rw [h]
  dsimp only
  rw [hadmission, ← directiveDiagnostics_eq h]

theorem buildEnum_admitted (h : settings.marker.directives? raw.doc.contentLines = some directives)
    {name : String} (hname : raw.name = some name)
    (hadmission : admission settings declared raw directives = .ok ⟨raw.scope, name⟩) :
    ∃ declaration, raw.Declares settings.marker declaration ∧
      buildEnum settings declared raw = (some declaration,
        raw.directiveWarnings settings.marker ++
          (buildEnumerators declaration.path [] raw.enumerators).2) := by
  refine ⟨⟨⟨raw.scope, name⟩, directives.conversions,
    (buildEnumerators ⟨raw.scope, name⟩ [] raw.enumerators).1, raw.isScoped, raw.position.line⟩,
    ?_, ?_⟩
  · exact
      { scope := rfl
        name := hname
        requested := Marker.contains_of_directives? h
        enumerators := buildEnumerators_kept ⟨raw.scope, name⟩ raw.enumerators
        isScoped := rfl
        line := rfl }
  · unfold buildEnum
    rw [h]
    dsimp only
    rw [hadmission, ← directiveDiagnostics_eq h]

theorem buildEnum_outcome (hdeclared : Declared settings earlier declared) (raw : RawEnum) :
    raw.Outcome settings earlier (buildEnum settings declared raw) := by
  cases h : settings.marker.directives? raw.doc.contentLines with
  | none =>
    have hbuild : buildEnum settings declared raw = (none, []) := by
      unfold buildEnum
      rw [h]
    rw [hbuild]
    exact .unmarked (Marker.directives?_eq_none_iff.1 h)
  | some directives =>
    have hannotated : raw.Annotated settings.marker := by
      by_contra hnone
      rw [Marker.directives?_eq_none_iff.2 hnone] at h
      cases h
    by_cases hsuppressed : settings.strict = true ∧ raw.unrecognizedLines settings.marker ≠ []
    · obtain ⟨hstrict, hlines⟩ := hsuppressed
      have hadmission : admission settings declared raw directives =
          .error .unrecognizedDirective := by
        simp [admission, hstrict, unrecognized_eq_nil_iff h, hlines]
      rw [buildEnum_rejected h hadmission]
      change raw.Outcome settings earlier (none, raw.directiveWarnings settings.marker ++ [])
      rw [List.append_nil]
      exact .suppressed hannotated hstrict hlines
    · have hrecognized : settings.strict = true →
          raw.unrecognizedLines settings.marker = [] := by
        intro hstrict
        by_contra hlines
        exact hsuppressed ⟨hstrict, hlines⟩
      obtain ⟨rejection, diagnostic, hadmission, hreport, hposition, hfault⟩ |
        ⟨name, hname, hfault, hadmission⟩ := admission_lenient hdeclared h hrecognized
      · rw [buildEnum_rejected h hadmission, hreport]
        exact .dropped hannotated hrecognized hposition hfault
      · obtain ⟨declaration, hdeclares, hbuild⟩ := buildEnum_admitted h hname hadmission
        rw [hbuild]
        exact .declared hannotated hrecognized hfault hdeclares

theorem firstFault?_eq_none_iff :
    raw.firstFault? settings earlier = none ↔
      (∃ content ∈ raw.directiveLines settings.marker, (request? content).isSome = true) ∧
      raw.name.isSome = true ∧ raw.enumerators ≠ [] ∧ ¬ raw.Taken settings earlier := by
  have hrequests : (¬ raw.Fault settings earlier .emptyDirectiveSet) ↔
      ∃ content ∈ raw.directiveLines settings.marker, (request? content).isSome = true := by
    simp [Fault, Option.isSome_iff_ne_none]
  have hnamed : (¬ raw.Fault settings earlier .anonymousEnum) ↔ raw.name.isSome = true := by
    simp [Fault, Option.isSome_iff_ne_none]
  rw [← hrequests, ← hnamed, firstFault?, List.find?_eq_none]
  simp only [dropKinds, List.forall_mem_cons, decide_eq_true_eq, List.not_mem_nil, false_implies,
    implies_true, and_true]
  rfl

/-- An enum is declared exactly if it can be and no earlier one has taken its names. -/
theorem Scan.RawEnum.Outcome.isSome_iff {result : Option Declaration × List Diagnostic}
    (h : raw.Outcome settings earlier result) :
    result.1.isSome = true ↔ raw.Eligible settings ∧ ¬ raw.Taken settings earlier := by
  cases h with
  | unmarked hannotated =>
    constructor
    · intro hsome
      cases hsome
    · intro heligible
      exact absurd heligible.1.annotated hannotated
  | suppressed hannotated hstrict hlines =>
    constructor
    · intro hsome
      cases hsome
    · intro heligible
      exact absurd (heligible.1.recognized hstrict) hlines
  | dropped hannotated hrecognized hposition hfault =>
    constructor
    · intro hsome
      cases hsome
    · rintro ⟨heligible, htaken⟩
      have hnone := firstFault?_eq_none_iff.2
        ⟨heligible.requests, heligible.named, heligible.inhabited, htaken⟩
      rw [hnone] at hfault
      cases hfault
  | declared hannotated hrecognized hfault hdeclares =>
    obtain ⟨hrequests, hnamed, hinhabited, htaken⟩ := firstFault?_eq_none_iff.1 hfault
    constructor
    · intro _
      exact ⟨⟨hannotated, hrequests, hnamed, hinhabited, hrecognized⟩, htaken⟩
    · intro _
      rfl

theorem Scan.RawEnum.Outcome.declares {result : Option Declaration × List Diagnostic}
    (h : raw.Outcome settings earlier result) :
    ∀ declaration ∈ result.1, raw.Declares settings.marker declaration := by
  intro declaration hdeclaration
  cases h with
  | declared hannotated hrecognized hfault hdeclares =>
    obtain rfl := Option.some.inj hdeclaration
    exact hdeclares
  | _ => cases hdeclaration

theorem Scan.RawEnum.Declares.components_eq {marker : Marker} {declaration : Declaration}
    (h : raw.Declares marker declaration) : declaration.path.components = raw.components := by
  simp [QualifiedPath.components, RawEnum.components, h.scope, h.name]

end EnumConverter
