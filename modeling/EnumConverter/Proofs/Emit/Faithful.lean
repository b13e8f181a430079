import EnumConverter.Proofs.Declaration.SharedValues
import EnumConverter.Proofs.Emit.Functions

namespace EnumConverter

open Source Emit

namespace Emit

/-- What the code of a converter says about an enum. -/
structure Converter.Faithful (converter : Converter) (declaration : Declaration) : Prop where
  /-- The branches of the encoder are the enumerators with their values, in the order of the enum. -/
  encoder : encoderChain? converter.kind declaration.path converter.source =
    some (declaration.values converter.kind)
  /-- The branches of the decoder are the same. -/
  decoder : decoderChain? converter.kind declaration.path converter.source =
    some (declaration.values converter.kind)
  /-- Another enum with this path and this code has the same enumerators and values. -/
  recovered : ∀ (other : Declaration) (indent : Indent) (converters : List Converter),
    other.Convertible → other.path = declaration.path →
    Registry.builtin.emit indent other = .ok converters →
    ∀ same ∈ converters, same.kind = converter.kind → same.source = converter.source →
      other.values converter.kind = declaration.values converter.kind
  /-- The decoder gives the first enumerator that has a value. -/
  decodes : ∀ value, decoded? converter.kind declaration.path converter.source value =
    (declaration.enumerators.find? (·.value converter.kind = value)).map (·.name)
  /-- Each enumerator comes back from its value exactly if no shared values are reported. -/
  roundTrip :
    (∀ enumerator ∈ declaration.enumerators,
      decoded? converter.kind declaration.path converter.source (enumerator.value converter.kind) =
        some enumerator.name) ↔
      declaration.duplicateValues converter.kind = []
  /-- The shared values that are reported are those of at least two enumerators, which are listed in the
  order of the enum. -/
  shared : ∀ value names, (value, names) ∈ declaration.duplicateValues converter.kind ↔
    names = (declaration.enumerators.filter (·.value converter.kind = value)).map (·.name) ∧
      2 ≤ names.length
  /-- Each shared value is reported once, in increasing order. -/
  sharedOnce : ((declaration.duplicateValues converter.kind).map (·.1)).Pairwise (· < ·)

theorem kind_written (indent : Indent) (declaration : Declaration) (kind : Conversion) :
    (written indent declaration kind).kind = kind := by
  cases kind <;> rfl

/-- The code determines the enumerators and their values. -/
theorem values_eq_of_source_eq {declaration other : Declaration} (h : declaration.Convertible)
    (hother : other.Convertible) {indent otherIndent : Indent} {kind : Conversion}
    (hpath : other.path = declaration.path)
    (hsource : (written otherIndent other kind).source = (written indent declaration kind).source) :
    other.values kind = declaration.values kind := by
  have hread := encoderChain?_written hother otherIndent kind
  rw [hpath, hsource, encoderChain?_written h] at hread
  exact (Option.some.inj hread).symm

theorem faithful_written {declaration : Declaration} (h : declaration.Convertible) (indent : Indent)
    (kind : Conversion) : (written indent declaration kind).Faithful declaration := by
  have hdecoded (value : String) :
      decoded? kind declaration.path (written indent declaration kind).source value =
        (declaration.enumerators.find? (·.value kind = value)).map (·.name) := by
    rw [decoded?_written h, Declaration.find?_values]
  have hkind := kind_written indent declaration kind
  constructor <;> rw [hkind]
  · exact encoderChain?_written h indent kind
  · exact decoderChain?_written h indent kind
  · intro other otherIndent converters hother hpath hemit same hsame hsameKind hsource
    rw [builtin_emit otherIndent hother.ne_nil] at hemit
    obtain rfl := Except.ok.inj hemit
    obtain ⟨otherKind, -, rfl⟩ := List.mem_map.1 hsame
    obtain rfl : otherKind = kind := (kind_written otherIndent other otherKind).symm.trans hsameKind
    exact values_eq_of_source_eq h hother hpath hsource
  · exact hdecoded
  · simp only [hdecoded, ← Declaration.head?_namesOf]
    exact Declaration.forall_head?_namesOf_iff h.distinct
  · intro value names
    rw [Declaration.mem_duplicateValues, Declaration.namesOf_eq]
    rfl
  · exact Declaration.pairwise_duplicateValues

end Emit

/-- The converters of an enum are faithful to it. -/
theorem emit_faithful {declaration : Declaration} (h : declaration.Convertible) (indent : Indent) :
    ∃ converters, Registry.builtin.emit indent declaration = .ok converters ∧
      converters.map (·.kind) = declaration.requested.toList ∧
      ∀ converter ∈ converters, converter.Faithful declaration := by
  refine ⟨_, builtin_emit indent h.ne_nil, ?_, ?_⟩
  · simp [Function.comp_def, kind_written]
  · intro converter hconverter
    obtain ⟨kind, -, rfl⟩ := List.mem_map.1 hconverter
    exact faithful_written h indent kind

/-- An enum with values that look like code, one of them shared. -/
def entangled : Declaration :=
  ⟨⟨[⟨"app", .namespaceScope⟩, ⟨"Widget", .typeScope⟩], "Mode"⟩, ⟨true, true⟩,
    [⟨"on", "\") \x7b\n\x7d", "return \"\\\";", 3⟩, ⟨"off", "value = ::app", "\x01\tü", 4⟩,
      ⟨"auto_", "\") \x7b\n\x7d", "auto_", 5⟩], true, 2⟩

theorem emit_faithful_entangled :
    entangled.Convertible ∧ entangled.duplicateValues .string ≠ [] ∧
      ∃ converters, Registry.builtin.emit .spaces2 entangled = .ok converters ∧
        converters.map (·.kind) = entangled.requested.toList ∧
        ∀ converter ∈ converters, converter.Faithful entangled := by
  have hconvertible : entangled.Convertible :=
    ⟨by decide +kernel, by decide +kernel, by decide, by decide⟩
  exact ⟨hconvertible, by decide +kernel, emit_faithful hconvertible .spaces2⟩

end EnumConverter
