import EnumConverter.Build
import Mathlib.Data.List.Forall2
import Mathlib.Order.Monotone.Basic

namespace EnumConverter

open Source Scan Annotation

variable (renumber : Nat → Nat)

def Source.Position.relined (position : Position) : Position :=
  { position with line := renumber position.line }

def Source.ContentLine.relined (content : ContentLine) : ContentLine :=
  { content with line := renumber content.line }

def Scan.RawEnumerator.relined (enumerator : RawEnumerator) : RawEnumerator :=
  { enumerator with position := enumerator.position.relined renumber }

def Annotation.Directives.relined (directives : Directives) : Directives :=
  { directives with
    markerLine := renumber directives.markerLine
    unrecognized := directives.unrecognized.map (ContentLine.relined renumber) }

def Enumerator.relined (enumerator : Enumerator) : Enumerator :=
  { enumerator with line := renumber enumerator.line }

def Declaration.relined (declaration : Declaration) : Declaration :=
  { declaration with
    line := renumber declaration.line
    enumerators := declaration.enumerators.map (Enumerator.relined renumber) }

def Diagnostic.relined (diagnostic : Diagnostic) : Diagnostic :=
  { diagnostic with position := diagnostic.position.relined renumber }

namespace Annotation

/-- The lines that have words. -/
def saidLines (lines : List ContentLine) : List ContentLine :=
  lines.filter fun content => (leadingWord? content.text).isSome

theorem saidLines_cons_of_some {content : ContentLine}
    (h : (leadingWord? content.text).isSome = true) (lines : List ContentLine) :
    saidLines (content :: lines) = content :: saidLines lines := by
  simp [saidLines, h]

theorem saidLines_cons_of_none {content : ContentLine}
    (h : (leadingWord? content.text).isSome = false) (lines : List ContentLine) :
    saidLines (content :: lines) = saidLines lines := by
  simp [saidLines, h]

theorem saidLines_append (first second : List ContentLine) :
    saidLines (first ++ second) = saidLines first ++ saidLines second :=
  List.filter_append ..

theorem saidLines_relined (lines : List ContentLine) :
    saidLines (lines.map (ContentLine.relined renumber)) =
      (saidLines lines).map (ContentLine.relined renumber) := by
  rw [saidLines, saidLines, List.filter_map]
  rfl

theorem Directives.add_of_none (directives : Directives) {content : ContentLine}
    (h : (leadingWord? content.text).isSome = false) : directives.add content = directives := by
  have hnone : leadingWord? content.text = none := by simpa using h
  rw [add, hnone]

theorem Directives.add_relined (directives : Directives) (content : ContentLine) :
    (directives.relined renumber).add (content.relined renumber) =
      (directives.add content).relined renumber := by
  unfold add
  have htext : (content.relined renumber).text = content.text := rfl
  rw [htext]
  cases leadingWord? content.text with
  | none => rfl
  | some word =>
    dsimp only
    cases Conversion.ofKeyword? word with
    | some kind => rfl
    | none => simp [relined, ContentLine.relined]

variable (marker : Marker)

theorem Marker.opens_relined (content : ContentLine) :
    marker.opens (content.relined renumber) = marker.opens content := rfl

/-- Lines without words are no marker lines. -/
theorem Marker.opens_of_none {content : ContentLine}
    (h : (leadingWord? content.text).isSome = false) : marker.opens content = false := by
  have hnone : leadingWord? content.text = none := by simpa using h
  simp [opens, hnone]

theorem foldl_add_saidLines (lines : List ContentLine) (directives : Directives) :
    ((saidLines lines).filter (!marker.opens ·)).foldl .add directives =
      (lines.filter (!marker.opens ·)).foldl .add directives := by
  induction lines generalizing directives with
  | nil => rfl
  | cons content lines ih =>
    cases hsaid : (leadingWord? content.text).isSome with
    | false =>
      rw [saidLines_cons_of_none hsaid, List.filter_cons_of_pos
        (by simp [marker.opens_of_none hsaid]), List.foldl_cons, directives.add_of_none hsaid]
      exact ih directives
    | true =>
      rw [saidLines_cons_of_some hsaid, List.filter_cons, List.filter_cons]
      split
      · rw [List.foldl_cons, List.foldl_cons]
        exact ih _
      · exact ih directives

/-- Lines without words do not count. -/
theorem directives?_saidLines (lines : List ContentLine) :
    marker.directives? (saidLines lines) = marker.directives? lines := by
  induction lines with
  | nil => rfl
  | cons content lines ih =>
    cases hsaid : (leadingWord? content.text).isSome with
    | false =>
      rw [saidLines_cons_of_none hsaid, Marker.directives?,
        if_neg (by simp [marker.opens_of_none hsaid])]
      exact ih
    | true =>
      rw [saidLines_cons_of_some hsaid, Marker.directives?, Marker.directives?]
      split
      · exact congrArg some (foldl_add_saidLines marker lines _)
      · exact ih

theorem foldl_add_relined (lines : List ContentLine) (directives : Directives) :
    (lines.map (ContentLine.relined renumber)).foldl .add (directives.relined renumber) =
      (lines.foldl .add directives).relined renumber := by
  induction lines generalizing directives with
  | nil => rfl
  | cons content lines ih =>
    rw [List.map_cons, List.foldl_cons, List.foldl_cons, Directives.add_relined, ih]

theorem directives?_relined (lines : List ContentLine) :
    marker.directives? (lines.map (ContentLine.relined renumber)) =
      (marker.directives? lines).map (Directives.relined renumber) := by
  induction lines with
  | nil => rfl
  | cons content lines ih =>
    rw [List.map_cons, Marker.directives?, Marker.directives?, marker.opens_relined]
    split
    · rw [Option.map_some, ← foldl_add_relined, List.filter_map]
      rfl
    · exact ih

end Annotation

/-- An enum is another one with its lines renumbered. Their documentation may differ in lines that have no
words. -/
structure Scan.RawEnum.Relined (raw other : RawEnum) : Prop where
  name : other.name = raw.name
  scope : other.scope = raw.scope
  isScoped : other.isScoped = raw.isScoped
  position : other.position = raw.position.relined renumber
  enumerators : other.enumerators = raw.enumerators.map (RawEnumerator.relined renumber)
  said : saidLines other.doc.contentLines =
    (saidLines raw.doc.contentLines).map (ContentLine.relined renumber)

variable (settings : BuildSettings) {renumber}

theorem Scan.RawEnum.Relined.directives? {raw other : RawEnum} (h : raw.Relined renumber other) :
    settings.marker.directives? other.doc.contentLines =
      (settings.marker.directives? raw.doc.contentLines).map (Directives.relined renumber) := by
  rw [← directives?_saidLines, h.said, directives?_relined, directives?_saidLines]

theorem Scan.RawEnum.Relined.admission {raw other : RawEnum} (h : raw.Relined renumber other)
    (declared : List QualifiedPath) (directives : Directives) :
    EnumConverter.admission settings declared other (directives.relined renumber) =
      EnumConverter.admission settings declared raw directives := by
  simp [EnumConverter.admission, Directives.relined, h.name, h.scope, h.enumerators]

theorem Scan.RawEnum.Relined.diagnostic? {raw other : RawEnum} (h : raw.Relined renumber other)
    (rejection : Rejection) :
    rejection.diagnostic? other = (rejection.diagnostic? raw).map (Diagnostic.relined renumber) := by
  unfold Rejection.diagnostic?
  rw [h.name, h.position]
  cases rejection <;> rfl

theorem Scan.RawEnum.Relined.directiveDiagnostics {raw other : RawEnum}
    (h : raw.Relined renumber other) (directives : Directives) :
    EnumConverter.directiveDiagnostics other (directives.relined renumber) =
      (EnumConverter.directiveDiagnostics raw directives).map (Diagnostic.relined renumber) := by
  simp only [EnumConverter.directiveDiagnostics, Directives.relined, List.map_map, h.name]
  rfl

theorem buildEnumerators_relined (path : QualifiedPath) (seen : List String)
    (enumerators : List RawEnumerator) :
    buildEnumerators path seen (enumerators.map (RawEnumerator.relined renumber)) =
      ((buildEnumerators path seen enumerators).1.map (Enumerator.relined renumber),
        (buildEnumerators path seen enumerators).2.map (Diagnostic.relined renumber)) := by
  induction enumerators generalizing seen with
  | nil => rfl
  | cons raw rest ih =>
    have hname : (raw.relined renumber).name = raw.name := rfl
    have htexts : (raw.relined renumber).overrideTexts = raw.overrideTexts := rfl
    rw [List.map_cons, buildEnumerators, buildEnumerators, hname, htexts, ih, ih]
    dsimp only
    split
    · rfl
    · rw [List.map_append, List.map_map]
      rfl

theorem buildEnum_relined {raw other : RawEnum} (h : raw.Relined renumber other)
    (declared : List QualifiedPath) :
    buildEnum settings declared other =
      ((buildEnum settings declared raw).1.map (Declaration.relined renumber),
        (buildEnum settings declared raw).2.map (Diagnostic.relined renumber)) := by
  unfold buildEnum
  rw [h.directives?]
  cases settings.marker.directives? raw.doc.contentLines with
  | none => rfl
  | some directives =>
    rw [Option.map_some]
    dsimp only
    rw [h.admission, h.directiveDiagnostics]
    cases EnumConverter.admission settings declared raw directives with
    | error rejection =>
      dsimp only
      rw [h.diagnostic?, List.map_append]
      cases rejection.diagnostic? raw <;> rfl
    | ok path =>
      dsimp only
      rw [h.enumerators, buildEnumerators_relined, List.map_append, h.position, h.isScoped]
      rfl

/-- Renumbered enums give the renumbered declarations and diagnostics. -/
theorem buildEnums_relined (declared : List QualifiedPath) {raws others : List RawEnum}
    (h : List.Forall₂ (RawEnum.Relined renumber) raws others) :
    buildEnums settings declared others =
      ⟨(buildEnums settings declared raws).declarations.map (Declaration.relined renumber),
        (buildEnums settings declared raws).diagnostics.map (Diagnostic.relined renumber)⟩ := by
  induction h generalizing declared with
  | nil => rfl
  | cons hraw _ ih =>
    rw [buildEnums, buildEnums, buildEnum_relined settings hraw]
    dsimp only
    have hpaths (declaration : Option Declaration) :
        (declaration.map (Declaration.relined renumber)).toList.map (·.path) =
          declaration.toList.map (·.path) := by
      cases declaration <;> rfl
    have hlist (declaration : Option Declaration) :
        (declaration.map (Declaration.relined renumber)).toList =
          declaration.toList.map (Declaration.relined renumber) := by
      cases declaration <;> rfl
    rw [hpaths, hlist, ih, List.map_append, List.map_append]

/-- What of a diagnostic decides its place among others, and what it is about. -/
def Diagnostic.key (diagnostic : Diagnostic) : DiagnosticKind × Position :=
  (diagnostic.kind, diagnostic.position)

theorem Source.Position.notAfter_relined (hrenumber : StrictMono renumber) (here there : Position) :
    (here.relined renumber).notAfter (there.relined renumber) = here.notAfter there := by
  have hless : decide (renumber here.line < renumber there.line) = decide (here.line < there.line) :=
    decide_eq_decide.2 hrenumber.lt_iff_lt
  have hsame : (renumber here.line == renumber there.line) = (here.line == there.line) := by
    rw [Bool.eq_iff_iff, beq_iff_eq, beq_iff_eq]
    exact hrenumber.injective.eq_iff
  change (decide (renumber here.line < renumber there.line) ||
    (renumber here.line == renumber there.line && _)) = _
  rw [hless, hsame]
  rfl

/-- Lists that correspond item by item still do when they are sorted, if corresponding items compare in
the same way. -/
theorem forall₂_mergeSort {α β : Type} {related : α → β → Prop} {notAfter : α → α → Bool}
    {notAfter' : β → β → Bool}
    (hsame : ∀ a b a' b', related a a' → related b b' → notAfter a b = notAfter' a' b')
    {items : List α} {others : List β} (h : List.Forall₂ related items others) :
    List.Forall₂ related (items.mergeSort notAfter) (others.mergeSort notAfter') := by
  obtain ⟨hlength, hzip⟩ := List.forall₂_iff_zip.1 h
  have hitems : (items.zip others).map Prod.fst = items := List.map_fst_zip hlength.le
  have hothers : (items.zip others).map Prod.snd = others := List.map_snd_zip hlength.ge
  have hfirst := List.map_mergeSort (r := fun a b => notAfter a.1 b.1) (s := notAfter)
    (f := Prod.fst) (l := items.zip others) fun _ _ _ _ => rfl
  have hsecond := List.map_mergeSort (r := fun a b => notAfter a.1 b.1) (s := notAfter')
    (f := Prod.snd) (l := items.zip others) fun a ha b hb =>
      hsame a.1 b.1 a.2 b.2 (hzip ha) (hzip hb)
  rw [hitems] at hfirst
  rw [hothers] at hsecond
  rw [← hfirst, ← hsecond, List.forall₂_map_left_iff, List.forall₂_map_right_iff, List.forall₂_same]
  intro pair hpair
  exact hzip ((List.mergeSort_perm _ _).mem_iff.1 hpair)

/-- Diagnostics that are the same up to messages and renumbered lines come in the same order. -/
theorem kinds_sortDiagnostics (hrenumber : StrictMono renumber) {diagnostics others : List Diagnostic}
    (h : others.map Diagnostic.key =
      (diagnostics.map (Diagnostic.relined renumber)).map Diagnostic.key) :
    (sortDiagnostics others).map (·.kind) = (sortDiagnostics diagnostics).map (·.kind) := by
  have hkeys : List.Forall₂ Eq (diagnostics.map fun diagnostic =>
      (diagnostic.relined renumber).key) (others.map Diagnostic.key) := by
    rw [List.forall₂_eq_eq_eq, h, List.map_map]
    rfl
  rw [List.forall₂_map_left_iff, List.forall₂_map_right_iff] at hkeys
  have hsame (a b a' b' : Diagnostic) (ha : (a.relined renumber).key = a'.key)
      (hb : (b.relined renumber).key = b'.key) :
      a.position.notAfter b.position = a'.position.notAfter b'.position := by
    have hfirst : a'.position = a.position.relined renumber := (congrArg Prod.snd ha).symm
    have hsecond : b'.position = b.position.relined renumber := (congrArg Prod.snd hb).symm
    rw [hfirst, hsecond, Position.notAfter_relined hrenumber]
  have hsorted := forall₂_mergeSort hsame hkeys
  symm
  rw [← List.forall₂_eq_eq_eq, List.forall₂_map_left_iff, List.forall₂_map_right_iff]
  exact hsorted.imp fun diagnostic other hkey => congrArg Prod.fst hkey

end EnumConverter
