import EnumConverter.Proofs.Build.Declarations
import EnumConverter.Proofs.Build.Report

namespace EnumConverter

open Source Scan Annotation RawEnum

/-- An annotated enum that is dropped for directives that are not understood. -/
def Scan.RawEnum.Suppressed (settings : BuildSettings) (raw : RawEnum) : Prop :=
  raw.Annotated settings.marker ∧ settings.strict = true ∧
    raw.unrecognizedLines settings.marker ≠ []

instance (settings : BuildSettings) (raw : RawEnum) : Decidable (raw.Suppressed settings) :=
  inferInstanceAs (Decidable (raw.Annotated settings.marker ∧ settings.strict = true ∧
    raw.unrecognizedLines settings.marker ≠ []))

variable {settings : BuildSettings}

/-- Every report that an enum was dropped is an error. -/
theorem severity_of_mem_dropKinds {kind : DiagnosticKind} (h : kind ∈ dropKinds) :
    kind.severity = .error := by
  simp only [dropKinds, List.mem_cons, List.not_mem_nil, or_false] at h
  obtain rfl | rfl | rfl | rfl := h <;> rfl

/-- An enum that gives no error is declared, suppressed or not annotated. -/
theorem Scan.RawEnum.Outcome.count_of_no_error {earlier : List RawEnum} {raw : RawEnum}
    {result : Option Declaration × List Diagnostic} (h : raw.Outcome settings earlier result)
    (herrors : ∀ diagnostic ∈ result.2, diagnostic.isError = false) :
    result.1.toList.length + ([raw].filter (·.Suppressed settings)).length =
      ([raw].filter (·.Annotated settings.marker)).length := by
  cases h with
  | unmarked hannotated => simp [Suppressed, hannotated]
  | suppressed hannotated hstrict hlines => simp [Suppressed, hannotated, hstrict, hlines]
  | dropped hannotated hrecognized hposition hfault =>
    rename_i diagnostic
    have herror : diagnostic.isError = true := by
      have hseverity := severity_of_mem_dropKinds (List.mem_of_find?_eq_some hfault)
      simp [Diagnostic.isError, Diagnostic.severity, hseverity]
    rw [herrors diagnostic (by simp)] at herror
    cases herror
  | declared hannotated hrecognized =>
    have hsuppressed : ¬ raw.Suppressed settings := by
      rintro ⟨-, hstrict, hlines⟩
      exact hlines (hrecognized hstrict)
    simp [hannotated, hsuppressed]

theorem count_of_no_errors (raws : List RawEnum)
    (herrors : ∀ diagnostic ∈ (buildEnums settings [] raws).diagnostics,
      diagnostic.isError = false) :
    (buildEnums settings [] raws).declarations.length +
        (raws.filter (·.Suppressed settings)).length =
      (raws.filter (·.Annotated settings.marker)).length := by
  induction raws using List.reverseRecOn with
  | nil => rfl
  | append_singleton raws raw ih =>
    rw [buildEnums_concat] at herrors ⊢
    have hearlier := ih fun diagnostic hdiagnostic =>
      herrors diagnostic (List.mem_append_left _ hdiagnostic)
    have hlast := (account_outcome settings raws raw).count_of_no_error
      fun diagnostic hdiagnostic => herrors diagnostic (List.mem_append_right _ hdiagnostic)
    rw [List.filter_append, List.filter_append, List.length_append, List.length_append,
      List.length_append]
    omega

/-- Where building reports no error, it has declared every annotated enum but those that it dropped for
directives that are not understood, and all of them unless it was told to drop these. -/
theorem length_declarations_of_no_errors (settings : BuildSettings) (source : String)
    (h : (build settings source).hasErrors = false) :
    (build settings source).declarations.length +
        ((scan source).enums.filter (·.Suppressed settings)).length =
      ((scan source).enums.filter (·.Annotated settings.marker)).length ∧
    (settings.strict = false → (build settings source).declarations.length =
      ((scan source).enums.filter (·.Annotated settings.marker)).length) := by
  have hall : ∀ diagnostic ∈ (build settings source).diagnostics, diagnostic.isError = false := by
    intro diagnostic hdiagnostic
    simpa using List.any_eq_false.1 h diagnostic hdiagnostic
  have hcount := count_of_no_errors (scan source).enums fun diagnostic hdiagnostic =>
    hall diagnostic ((sortDiagnostics_perm _).mem_iff.2 (List.mem_append_right _ hdiagnostic))
  refine ⟨hcount, fun hlenient => ?_⟩
  have hnone : (scan source).enums.filter (·.Suppressed settings) = [] := by
    rw [List.filter_eq_nil_iff]
    intro raw _ hsuppressed
    have hstrict := (of_decide_eq_true hsuppressed).2.1
    rw [hlenient] at hstrict
    cases hstrict
  rw [hnone, List.length_nil, Nat.add_zero] at hcount
  exact hcount

/-- A header with an enum that requests a conversion and something unknown. -/
def unknownDirective : String :=
  "/// @cpp_codegen\n/// string_serialization\n/// xml_serialization\nenum e \x7b a \x7d;"

theorem length_declarations_unknownDirective :
    (build { strict := true } unknownDirective).hasErrors = false ∧
      (build { strict := true } unknownDirective).declarations.length +
          ((scan unknownDirective).enums.filter (·.Suppressed { strict := true })).length =
        ((scan unknownDirective).enums.filter (·.Annotated (.ofText defaultMarker))).length := by
  have h : (build { strict := true } unknownDirective).hasErrors = false := by decide +kernel
  exact ⟨h, (length_declarations_of_no_errors { strict := true } unknownDirective h).1⟩

/-- The enum is dropped, and all that is left of it is a warning. -/
theorem unknownDirective_drops_without_error :
    (build { strict := true } unknownDirective).hasErrors = false ∧
      (build { strict := true } unknownDirective).declarations.length ≠
        ((scan unknownDirective).enums.filter (·.Annotated (.ofText defaultMarker))).length := by
  decide +kernel

end EnumConverter
