import EnumConverter.Build
import EnumConverter.Proofs.Scan.Words

namespace EnumConverter

open Source Scan Annotation

/-- A declaration all of whose names can be written back. -/
structure Declaration.Spelled (declaration : Declaration) : Prop where
  scope : ∀ segment ∈ declaration.path.scope, segment.Spelled
  name : isIdentifier declaration.path.name.toList = true
  enumerators : ∀ enumerator ∈ declaration.enumerators, isIdentifier enumerator.name.toList = true
  inhabited : declaration.enumerators ≠ []

theorem buildEnumerators_names (path : QualifiedPath) (seen : List String)
    (raws : List RawEnumerator) :
    ∀ enumerator ∈ (buildEnumerators path seen raws).1, ∃ raw ∈ raws, raw.name = enumerator.name := by
  fun_induction buildEnumerators path seen raws with
  | case1 => simp
  | case2 seen raw rest _ enumerators diagnostics hread repeated ih =>
    rw [hread] at ih
    intro enumerator henumerator
    obtain ⟨other, hother, hname⟩ := ih enumerator henumerator
    exact ⟨other, List.mem_cons_of_mem _ hother, hname⟩
  | case3 seen raw rest _ overrides problems enumerators diagnostics hread ih =>
    rw [hread] at ih
    intro enumerator henumerator
    obtain rfl | henumerator := List.mem_cons.1 henumerator
    · exact ⟨raw, by simp, rfl⟩
    · obtain ⟨other, hother, hname⟩ := ih enumerator henumerator
      exact ⟨other, List.mem_cons_of_mem _ hother, hname⟩

/-- The first enumerator always stays. -/
theorem buildEnumerators_ne_nil (path : QualifiedPath) {raws : List RawEnumerator} (h : raws ≠ []) :
    (buildEnumerators path [] raws).1 ≠ [] := by
  obtain ⟨raw, rest, rfl⟩ := List.exists_cons_of_ne_nil h
  simp [buildEnumerators]

theorem admission_ok {settings : BuildSettings} {declared : List QualifiedPath} {raw : RawEnum}
    {directives : Directives} {path : QualifiedPath}
    (h : admission settings declared raw directives = .ok path) :
    path.scope = raw.scope ∧ raw.name = some path.name ∧ raw.enumerators ≠ [] := by
  unfold admission at h
  split at h
  · simp at h
  split at h
  · simp at h
  split at h
  · simp at h
  · rename_i name hname
    dsimp only at h
    split at h
    · simp at h
    · rename_i henumerators
      split at h
      · simp at h
      · obtain rfl : QualifiedPath.mk raw.scope name = path := by simpa using h
        exact ⟨rfl, hname, by simpa using henumerators⟩

theorem buildEnum_spelled {settings : BuildSettings} {declared : List QualifiedPath} {raw : RawEnum}
    (hraw : raw.Spelled) {declaration : Declaration}
    (h : (buildEnum settings declared raw).1 = some declaration) : declaration.Spelled := by
  unfold buildEnum at h
  split at h
  · simp at h
  · dsimp only at h
    split at h
    · simp at h
    · rename_i directives _ path hadmission
      obtain ⟨hscope, hname, hne⟩ := admission_ok hadmission
      obtain rfl : _ = declaration := by simpa only [Option.some.injEq] using h
      refine ⟨?_, hraw.name _ hname, ?_, buildEnumerators_ne_nil path hne⟩
      · dsimp only
        rw [hscope]
        exact hraw.scope
      · intro enumerator henumerator
        obtain ⟨other, hother, hsame⟩ := buildEnumerators_names path [] raw.enumerators _ henumerator
        exact hsame ▸ hraw.enumerators other hother

theorem buildEnums_spelled {settings : BuildSettings} {declared : List QualifiedPath}
    {raws : List RawEnum} (hraws : ∀ raw ∈ raws, raw.Spelled) :
    ∀ declaration ∈ (buildEnums settings declared raws).declarations, declaration.Spelled := by
  induction raws generalizing declared with
  | nil => simp [buildEnums]
  | cons raw rest ih =>
    rw [buildEnums]
    intro declaration hdeclaration
    obtain hfirst | hlater := List.mem_append.1 hdeclaration
    · exact buildEnum_spelled (hraws raw (by simp)) (Option.mem_toList.1 hfirst)
    · exact ih (fun other hother => hraws other (by simp [hother])) declaration hlater

/-- Every name in a declaration that is built from a source text can be written back. -/
theorem build_spelled (settings : BuildSettings) (source : String) :
    ∀ declaration ∈ (build settings source).declarations, declaration.Spelled :=
  buildEnums_spelled (scan_spelled source)

end EnumConverter
