import EnumConverter.Proofs.Confined.Text
import EnumConverter.Emit.Registry
import EnumConverter.Proofs.Inert.Line
import Mathlib.Data.List.Forall2

namespace EnumConverter

open Source Text Emit

namespace Emit

/-- Two lines of code of one depth that are read alike. -/
structure CodeLine.Alike (line other : CodeLine) : Prop where
  depth : line.depth = other.depth
  text : Source.Alike (line.text ++ "\n").toList (other.text ++ "\n").toList

/-- Lines of code that are alike one by one. -/
abbrev AlikeLines (lines others : List CodeLine) : Prop :=
  List.Forall₂ CodeLine.Alike lines others

theorem AlikeLines.append {lines others more others' : List CodeLine} (h : AlikeLines lines others)
    (hmore : AlikeLines more others') : AlikeLines (lines ++ more) (others ++ others') :=
  List.rel_append h hmore

theorem alike_renderLines (indent : Indent) {lines others : List CodeLine}
    (h : AlikeLines lines others) :
    Source.Alike (renderLines indent lines).toList (renderLines indent others).toList := by
  induction h with
  | nil => exact .nil
  | @cons line other lines others hline _ ih =>
    have hlevel := alike_blanks (Scan.isBlank_level indent line.depth)
    have hrender (text : String) : indent.level line.depth ++ text ++ "\n" =
        indent.level line.depth ++ (text ++ "\n") := String.append_assoc
    unfold renderLines CodeLine.render
    rw [← hline.depth, hrender, hrender]
    exact (hlevel.followed hline.text).followed ih

/-- A text in which no literal, no comment and no directive is opened. -/
def IsPlain (text : String) : Prop :=
  ∀ c ∈ text.toList, c ∉ openers

instance (text : String) : Decidable (IsPlain text) :=
  List.decidableBAll (· ∉ openers) text.toList

theorem IsPlain.append {first second : String} (hfirst : IsPlain first) (hsecond : IsPlain second) :
    IsPlain (first ++ second) := by
  intro c hc
  rw [String.toList_append, List.mem_append] at hc
  exact hc.elim (hfirst c) (hsecond c)

theorem isPlain_of_isIdentifier {word : String} (h : isIdentifier word.toList = true) :
    IsPlain word := by
  have hopeners : openers.all (!isIdentRest ·) = true := by decide
  intro c hc hmem
  have hopener : isIdentRest c = false := by simpa using List.all_eq_true.1 hopeners c hmem
  rw [isIdentifier_all h c hc] at hopener
  contradiction

theorem isPlain_joined {separator : String} (hseparator : IsPlain separator) {texts : List String}
    (h : ∀ text ∈ texts, IsPlain text) : IsPlain (joined separator texts) := by
  intro c hc hmem
  exact notMem_joined (fun hin => hseparator c hin hmem) (fun text htext hin => h text htext c hin hmem) hc

theorem alike_plainText {text : String} (h : IsPlain text)
    (hlast : text.toList.getLast?.any endsToken = true) : Source.Alike text.toList text.toList :=
  alike_plain h hlast

theorem alike_plainLine (depth : Nat) {text : String} (h : IsPlain text) :
    CodeLine.Alike ⟨depth, text⟩ ⟨depth, text⟩ := by
  refine ⟨rfl, alike_plainText (h.append (by decide)) ?_⟩
  rw [String.toList_append, List.getLast?_append]
  rfl

/-- Code up to the end of a literal, whatever value the literal stands for. -/
theorem alike_literal {start : String} (hstart : IsPlain start)
    (hlast : start.toList.getLast?.any endsToken = true) (value value' : String) :
    Source.Alike (start ++ quote value).toList (start ++ quote value').toList :=
  (alike_plainText hstart hlast).followed (alike_quote value value')

/-- A line with a literal in it, whatever value the literal stands for. -/
theorem alike_literalLine (depth : Nat) {start finish : String} (hstart : IsPlain start)
    (hlast : start.toList.getLast?.any endsToken = true) (hfinish : IsPlain finish)
    (value value' : String) :
    CodeLine.Alike ⟨depth, start ++ quote value ++ finish⟩ ⟨depth, start ++ quote value' ++ finish⟩ := by
  have hline (text : String) : start ++ text ++ finish ++ "\n" = start ++ text ++ (finish ++ "\n") :=
    String.append_assoc
  refine ⟨rfl, ?_⟩
  dsimp only
  rw [hline, hline]
  exact (alike_literal hstart hlast value value').followed (alike_plainLine depth hfinish).text

/-- Two conditionals are alike if their conditions and statements are. -/
theorem alike_conditional {depth : Nat} {condition condition' : String}
    {statements statements' : List String}
    (hcondition : CodeLine.Alike ⟨depth, "if (" ++ condition ++ ") \x7b"⟩
      ⟨depth, "if (" ++ condition' ++ ") \x7b"⟩)
    (hstatements : AlikeLines (statements.map (⟨depth + 1, ·⟩)) (statements'.map (⟨depth + 1, ·⟩))) :
    AlikeLines (conditional depth condition statements) (conditional depth condition' statements') :=
  .cons hcondition (AlikeLines.append hstatements (.cons (alike_plainLine depth (by decide)) .nil))

/-- Two functions of one signature are alike if their bodies are. -/
theorem alike_function {signature : String} (hsignature : IsPlain signature)
    {body body' : List CodeLine} (hbody : AlikeLines body body') :
    AlikeLines (function signature body) (function signature body') :=
  .cons (alike_plainLine 0 (hsignature.append (by decide)))
    (AlikeLines.append hbody (.cons (alike_plainLine 0 (by decide)) .nil))

end Emit

namespace Declaration

/-- Whether an enum can be written down: its path and its enumerators are named by words. -/
structure Worded (declaration : Declaration) : Prop where
  path : ∀ name ∈ declaration.path.components, isIdentifier name.toList = true
  enumerators : ∀ enumerator ∈ declaration.enumerators, isIdentifier enumerator.name.toList = true

/-- Two enums that differ in the values of their enumerators only. -/
structure SameButValues (declaration other : Declaration) : Prop where
  path : declaration.path = other.path
  requested : declaration.requested = other.requested
  names : declaration.enumerators.map (·.name) = other.enumerators.map (·.name)

/-- Two entries for one enumerator, with values of their own. -/
def SameName (entry other : String × String) : Prop :=
  entry.1 = other.1 ∧ isIdentifier entry.1.toList = true

namespace Worded

variable {declaration : Declaration} (h : declaration.Worded)
include h

theorem isPlain_display : IsPlain declaration.path.display :=
  isPlain_joined (by decide) fun name hname => isPlain_of_isIdentifier (h.path name hname)

theorem isPlain_reference : IsPlain declaration.path.reference :=
  IsPlain.append (by decide) h.isPlain_display

theorem isPlain_enumeratorReference {name : String} (hname : isIdentifier name.toList = true) :
    IsPlain (declaration.enumeratorReference name) :=
  (h.isPlain_reference.append (by decide)).append (isPlain_of_isIdentifier hname)

/-- A signature refers to the enum once, between fixed pieces of code. -/
theorem isPlain_signature {start finish : String} (hstart : IsPlain start) (hfinish : IsPlain finish) :
    IsPlain (start ++ declaration.path.reference ++ finish) :=
  (hstart.append h.isPlain_reference).append hfinish

theorem alike_valueCondition (depth : Nat) {name : String} (hname : isIdentifier name.toList = true) :
    CodeLine.Alike ⟨depth, "if (" ++ ("value == " ++ declaration.enumeratorReference name) ++ ") \x7b"⟩
      ⟨depth, "if (" ++ ("value == " ++ declaration.enumeratorReference name) ++ ") \x7b"⟩ := by
  have hcondition : IsPlain ("value == " ++ declaration.enumeratorReference name) :=
    IsPlain.append (by decide) (h.isPlain_enumeratorReference hname)
  exact alike_plainLine depth ((IsPlain.append (by decide) hcondition).append (by decide))

theorem alike_assignment (depth : Nat) {name : String} (hname : isIdentifier name.toList = true) :
    CodeLine.Alike ⟨depth, "value = " ++ declaration.enumeratorReference name ++ ";"⟩
      ⟨depth, "value = " ++ declaration.enumeratorReference name ++ ";"⟩ := by
  have hreference := h.isPlain_enumeratorReference hname
  exact alike_plainLine depth ((IsPlain.append (by decide) hreference).append (by decide))

end Worded

theorem alike_textCondition (depth : Nat) (value value' : String) :
    CodeLine.Alike ⟨depth, "if (" ++ ("text == " ++ quote value) ++ ") \x7b"⟩
      ⟨depth, "if (" ++ ("text == " ++ quote value') ++ ") \x7b"⟩ := by
  have htext (text : String) : "if (" ++ ("text == " ++ text) = "if (text == " ++ text :=
    String.append_assoc.symm
  rw [htext, htext]
  exact alike_literalLine depth (by decide) (by decide) (by decide) value value'

/-- The first statement of the exception that a conversion ends with. -/
theorem alike_exception (value : String) :
    Source.Alike ("throw std::invalid_argument(std::string(" ++ quote value ++ ") + ").toList
      ("throw std::invalid_argument(std::string(" ++ quote value ++ ") + ").toList :=
  (alike_literal (by decide) (by decide) value value).followed
    (alike_plainText (by decide) (by decide))

namespace SameButValues

variable {declaration other : Declaration} (h : declaration.SameButValues other)
  (hwords : declaration.Worded)
include h hwords

theorem values (kind : Conversion) :
    List.Forall₂ SameName (declaration.values kind) (other.values kind) := by
  have hnames : List.Forall₂ (fun enumerator twin : Enumerator => enumerator.name = twin.name)
      declaration.enumerators other.enumerators := by
    have heq := h.names
    rw [← List.forall₂_eq_eq_eq, List.forall₂_map_left_iff, List.forall₂_map_right_iff] at heq
    exact heq
  rw [Declaration.values, Declaration.values, List.forall₂_map_left_iff, List.forall₂_map_right_iff]
  exact ((List.forall₂_and_left _ _).2 ⟨hwords.enumerators, hnames⟩).imp fun _ _ h => ⟨h.2, h.1⟩

/-- Code for one enumerator after the other is alike if the code for each of them is. -/
theorem alike_values (kind : Conversion) {code code' : String × String → List CodeLine}
    (hcode : ∀ name value value', isIdentifier name.toList = true →
      AlikeLines (code (name, value)) (code' (name, value'))) :
    AlikeLines ((declaration.values kind).flatMap code) ((other.values kind).flatMap code') := by
  refine List.rel_flatMap (h.values hwords kind) ?_
  rintro ⟨name, value⟩ ⟨_, value'⟩ ⟨rfl, hname⟩
  exact hcode name value value' hname

theorem alike_toStringLines :
    AlikeLines (StringConverter.toStringLines declaration) (StringConverter.toStringLines other) := by
  unfold StringConverter.toStringLines StringConverter.toStringSignature enumeratorReference
  rw [← h.path]
  refine alike_function (hwords.isPlain_signature (by decide) (by decide)) ?_
  refine .append (h.alike_values hwords .string fun name value value' hname => ?_)
    (.cons (alike_plainLine 1 (by decide)) .nil)
  exact alike_conditional (hwords.alike_valueCondition 1 hname)
    (.cons (alike_literalLine 2 (by decide) (by decide) (by decide) value value') .nil)

theorem alike_fromStringLines :
    AlikeLines (StringConverter.fromStringLines declaration)
      (StringConverter.fromStringLines other) := by
  unfold StringConverter.fromStringLines StringConverter.fromStringSignature enumeratorReference
  rw [← h.path]
  refine alike_function (hwords.isPlain_signature (by decide) (by decide)) ?_
  refine .append (h.alike_values hwords .string fun name value value' hname => ?_)
    (.cons (alike_plainLine 1 (by decide)) .nil)
  exact alike_conditional (alike_textCondition 1 value value')
    (.cons (hwords.alike_assignment 2 hname) (.cons (alike_plainLine 2 (by decide)) .nil))

theorem alike_toJsonLines :
    AlikeLines (JsonConverter.toJsonLines declaration) (JsonConverter.toJsonLines other) := by
  have hthrow : CodeLine.Alike
      ⟨1, "throw std::invalid_argument(std::string(\"unnamed value of \") + " ++
        quote declaration.path.display ++ ");"⟩
      ⟨1, "throw std::invalid_argument(std::string(\"unnamed value of \") + " ++
        quote declaration.path.display ++ ");"⟩ := by
    have hstart : "throw std::invalid_argument(std::string(\"unnamed value of \") + " =
        "throw std::invalid_argument(std::string(" ++ quote "unnamed value of " ++ ") + " := by decide
    refine ⟨rfl, ?_⟩
    rw [hstart, String.append_assoc]
    exact ((alike_exception _).followed (alike_quote _ _)).followed
      (alike_plainLine 1 (by decide)).text
  unfold JsonConverter.toJsonLines JsonConverter.toJsonSignature enumeratorReference
  rw [← h.path]
  refine alike_function (hwords.isPlain_signature (by decide) (by decide)) ?_
  refine .append (h.alike_values hwords .json fun name value value' hname => ?_) (.cons hthrow .nil)
  exact alike_conditional (hwords.alike_valueCondition 1 hname)
    (.cons (alike_literalLine 2 (by decide) (by decide) (by decide) value value')
      (.cons (alike_plainLine 2 (by decide)) .nil))

theorem alike_fromJsonLines :
    AlikeLines (JsonConverter.fromJsonLines declaration) (JsonConverter.fromJsonLines other) := by
  have hthrow : CodeLine.Alike
      ⟨1, "throw std::invalid_argument(std::string(\"invalid \") + " ++
        quote declaration.path.display ++ " + \" value: \" + json.dump());"⟩
      ⟨1, "throw std::invalid_argument(std::string(\"invalid \") + " ++
        quote declaration.path.display ++ " + \" value: \" + json.dump());"⟩ := by
    have hstart : "throw std::invalid_argument(std::string(\"invalid \") + " =
        "throw std::invalid_argument(std::string(" ++ quote "invalid " ++ ") + " := by decide
    have hfinish : " + \" value: \" + json.dump());" =
        " + " ++ quote " value: " ++ " + json.dump());" := by decide
    refine ⟨rfl, ?_⟩
    rw [hstart, hfinish, String.append_assoc]
    exact ((alike_exception _).followed (alike_quote _ _)).followed
      (alike_literalLine 1 (by decide) (by decide) (by decide) _ _).text
  unfold JsonConverter.fromJsonLines JsonConverter.fromJsonSignature enumeratorReference
  rw [← h.path]
  refine alike_function (hwords.isPlain_signature (by decide) (by decide)) ?_
  refine .append (.cons (alike_plainLine 1 (by decide)) (.cons (alike_plainLine 2 (by decide))
    (h.alike_values hwords .json fun name value value' hname => ?_)))
    (.cons (alike_plainLine 1 (by decide)) (.cons hthrow .nil))
  exact alike_conditional (alike_textCondition 2 value value')
    (.cons (hwords.alike_assignment 3 hname) (.cons (alike_plainLine 3 (by decide)) .nil))

omit hwords in
/-- The headers of two converters are equal. -/
theorem header_eq (indent : Indent) (kind : Conversion) :
    (written indent declaration kind).header = (written indent other kind).header := by
  cases kind with
  | string =>
    change StringConverter.header declaration = StringConverter.header other
    unfold StringConverter.header StringConverter.toStringSignature StringConverter.fromStringSignature
    rw [h.path]
  | json =>
    change JsonConverter.header declaration = JsonConverter.header other
    unfold JsonConverter.header JsonConverter.toJsonSignature JsonConverter.fromJsonSignature
    rw [h.path]

theorem alike_source (indent : Indent) (kind : Conversion) :
    Source.Alike (written indent declaration kind).source.toList
      (written indent other kind).source.toList := by
  have hblank : AlikeLines [⟨0, ""⟩] [⟨0, ""⟩] := .cons (alike_plainLine 0 (by decide)) .nil
  cases kind with
  | string =>
    exact alike_renderLines indent (((h.alike_toStringLines hwords).append hblank).append
      (h.alike_fromStringLines hwords))
  | json =>
    exact alike_renderLines indent (((h.alike_toJsonLines hwords).append hblank).append
      (h.alike_fromJsonLines hwords))

end SameButValues

end Declaration

end EnumConverter
