import EnumConverter.Build
import EnumConverter.Proofs.Scan.Visit

namespace EnumConverter

open Source Scan

namespace Scan

/-- What is found in a text reports nothing but braces. -/
def Outline.OnlyBraces (outline : Outline) : Prop :=
  ∀ diagnostic ∈ outline.diagnostics, diagnostic.kind = .unbalancedScope

theorem scan_onlyBraces (source : String) : (scan source).OnlyBraces := by
  intro diagnostic hdiagnostic
  obtain ⟨token, -, hreport⟩ | ⟨count, line, rfl⟩ :=
    scanFrom_diagnostics _ _ _ diagnostic hdiagnostic
  · exact hreport.kind_eq
  · rfl

end Scan

theorem Source.Position.notAfter_trans (first second third : Position)
    (h : first.notAfter second = true) (h' : second.notAfter third = true) :
    first.notAfter third = true := by
  simp only [notAfter, Bool.or_eq_true, Bool.and_eq_true, decide_eq_true_eq, beq_iff_eq] at *
  omega

theorem Source.Position.notAfter_total (first second : Position) :
    (first.notAfter second || second.notAfter first) = true := by
  simp only [notAfter, Bool.or_eq_true, Bool.and_eq_true, decide_eq_true_eq, beq_iff_eq]
  omega

theorem sortDiagnostics_perm (diagnostics : List Diagnostic) :
    (sortDiagnostics diagnostics).Perm diagnostics :=
  List.mergeSort_perm ..

theorem pairwise_sortDiagnostics (diagnostics : List Diagnostic) :
    (sortDiagnostics diagnostics).Pairwise fun a b => a.position.notAfter b.position = true :=
  List.pairwise_mergeSort (fun a b c => Position.notAfter_trans a.position b.position c.position)
    (fun a b => Position.notAfter_total a.position b.position) diagnostics

/-- Diagnostics of one place keep their order. -/
theorem filter_sortDiagnostics (diagnostics : List Diagnostic) (place : Position) :
    (sortDiagnostics diagnostics).filter (·.position = place) =
      diagnostics.filter (·.position = place) := by
  have hordered : (diagnostics.filter (·.position = place)).Pairwise
      fun a b => a.position.notAfter b.position = true := by
    apply List.pairwise_of_forall_mem_list
    intro a ha b hb
    have hplace : a.position = place := by simpa using (List.mem_filter.1 ha).2
    have hplace' : b.position = place := by simpa using (List.mem_filter.1 hb).2
    rw [hplace, hplace']
    simpa using Position.notAfter_total place place
  have hsublist : (diagnostics.filter (·.position = place)).Sublist (sortDiagnostics diagnostics) :=
    List.sublist_mergeSort
      (fun a b c => Position.notAfter_trans a.position b.position c.position)
      (fun a b => Position.notAfter_total a.position b.position) hordered List.filter_sublist
  have hfiltered := hsublist.filter (fun diagnostic => diagnostic.position = place)
  rw [List.filter_filter] at hfiltered
  simp only [Bool.and_self] at hfiltered
  exact (hfiltered.eq_of_length ((sortDiagnostics_perm diagnostics).filter _).length_eq.symm).symm

end EnumConverter
