import EnumConverter.Generate
import EnumConverter.Proofs.Path.Order
import EnumConverter.Text.Case
import Mathlib.Data.List.Pairwise

namespace EnumConverter

/-- Both of two files are of different paths. -/
def FileAnalysis.Differs (a b : FileAnalysis) : Prop :=
  a.relativePath.same b.relativePath = false

instance : Std.Symm FileAnalysis.Differs where
  symm a b h := by
    rw [FileAnalysis.Differs, Path.same, decide_eq_false_iff_not] at h ⊢
    exact Ne.symm h

variable (settings : Settings) {files other : List SourceFile}

theorem files_analyze_perm (files : List SourceFile) :
    (analyze settings files).files.Perm (files.map (analyzeFile settings.annotation.build)) :=
  List.mergeSort_perm ..

theorem pairwise_files_analyze (files : List SourceFile) :
    (analyze settings files).files.Pairwise
      fun a b => a.relativePath.notAfter b.relativePath = true := by
  have htrans : ∀ a b c : FileAnalysis, a.relativePath.notAfter b.relativePath = true →
      b.relativePath.notAfter c.relativePath = true →
      a.relativePath.notAfter c.relativePath = true :=
    fun a b c => Path.notAfter_trans a.relativePath b.relativePath c.relativePath
  have htotal : ∀ a b : FileAnalysis, (a.relativePath.notAfter b.relativePath ||
      b.relativePath.notAfter a.relativePath) = true :=
    fun a b => Path.notAfter_total a.relativePath b.relativePath
  exact List.pairwise_mergeSort htrans htotal (files.map (analyzeFile settings.annotation.build))

theorem pairwise_differs_analyze
    (hdistinct : files.Pairwise fun a b => a.relativePath.same b.relativePath = false) :
    (analyze settings files).files.Pairwise FileAnalysis.Differs := by
  rw [(files_analyze_perm settings files).pairwise_iff (Std.Symm.symm _ _),
    List.pairwise_map]
  exact hdistinct

/-- Headers of different paths are sorted in a way that leaves no choice. -/
theorem analyze_eq_of_perm (hperm : files.Perm other)
    (hdistinct : files.Pairwise fun a b => a.relativePath.same b.relativePath = false) :
    analyze settings files = analyze settings other := by
  have hall : (analyze settings files).files.Perm (analyze settings other).files :=
    ((files_analyze_perm settings files).trans (hperm.map _)).trans
      (files_analyze_perm settings other).symm
  have hdiffers := pairwise_differs_analyze settings hdistinct
  have hfiles : (analyze settings files).files = (analyze settings other).files := by
    refine List.Perm.eq_of_pairwise ?_ (pairwise_files_analyze settings files)
      (pairwise_files_analyze settings other) hall
    intro a b ha hb hab hba
    by_contra hne
    have hsame := Path.same_of_notAfter hab hba
    rw [hdiffers.forall ha (hall.symm.subset hb) hne] at hsame
    cases hsame
  calc analyze settings files = ⟨(analyze settings files).files⟩ := rfl
    _ = ⟨(analyze settings other).files⟩ := by rw [hfiles]
    _ = analyze settings other := rfl

/-- What headers of different paths hold does not depend on the order in which they are given: it is
what each of them holds alone, in the order of the paths. So neither the generated files, nor the error
in their place, nor the number of diagnostics that count as failures depend on it. -/
theorem analyze_perm (hperm : files.Perm other)
    (hdistinct : files.Pairwise fun a b => a.relativePath.same b.relativePath = false) :
    analyze settings files = analyze settings other ∧
    (analyze settings files).files.Perm (files.map fun file =>
      let built := buildFile settings.annotation.build file.relativePath.text file.content
      ⟨file.relativePath, built.declarations, built.diagnostics⟩) ∧
    (analyze settings files).files.Pairwise (fun a b =>
      a.relativePath.notAfter b.relativePath = true ∧
        a.relativePath.same b.relativePath = false) ∧
    (∀ snake registry, generate snake settings.output registry (analyze settings files) =
      generate snake settings.output registry (analyze settings other)) ∧
    ∀ policy : DiagnosticPolicy, policy.failures (analyze settings files) =
      policy.failures (analyze settings other) := by
  have heq := analyze_eq_of_perm settings hperm hdistinct
  refine ⟨heq, files_analyze_perm settings files, ?_, ?_, ?_⟩
  · exact (pairwise_files_analyze settings files).and (pairwise_differs_analyze settings hdistinct)
  · intro snake registry
    rw [heq]
  · intro policy
    rw [heq]

/-- Two headers with one enum each, and both enums need the same files. -/
def sampleHeaders : List SourceFile :=
  [⟨⟨"./b.hpp"⟩, ⟨"b.hpp"⟩,
      "namespace outer \x7b\n/// @cpp_codegen\n/// json_serialization\nenum Mode \x7b a \x7d;\n\x7d\n"⟩,
    ⟨⟨"./b/z.hpp"⟩, ⟨"b/z.hpp"⟩,
      "/// @cpp_codegen\n/// string_serialization\nenum class Mode \x7b a \x7d;\n"⟩]

theorem analyze_perm_sampleHeaders :
    sampleHeaders.Perm sampleHeaders.reverse ∧
    sampleHeaders.Pairwise (fun a b => a.relativePath.same b.relativePath = false) ∧
    (generate Text.snakeCase {} .builtin (analyze {} sampleHeaders)).files =
      (generate Text.snakeCase {} .builtin (analyze {} sampleHeaders.reverse)).files := by
  have hperm : sampleHeaders.Perm sampleHeaders.reverse := sampleHeaders.reverse_perm.symm
  have hdistinct : sampleHeaders.Pairwise
      fun a b => a.relativePath.same b.relativePath = false := by decide +kernel
  obtain ⟨-, -, -, hgenerate, -⟩ := analyze_perm {} hperm hdistinct
  exact ⟨hperm, hdistinct, congrArg Generation.files (hgenerate _ .builtin)⟩

end EnumConverter
