import EnumConverter.Emit.Registry
import EnumConverter.Proofs.Build.Words
import EnumConverter.Proofs.Inert.Line
import EnumConverter.Proofs.Inert.Name
import EnumConverter.Proofs.Text.Line

namespace EnumConverter

open Source Scan Text Emit

namespace Declaration.Spelled

variable {declaration : Declaration} (h : declaration.Spelled)
include h

theorem components_words : ∀ name ∈ declaration.path.components, isIdentifier name.toList = true := by
  intro name hname
  rw [QualifiedPath.components, List.mem_append, List.mem_singleton] at hname
  obtain hname | rfl := hname
  · obtain ⟨segment, hsegment, rfl⟩ := List.mem_map.1 hname
    exact (h.scope segment hsegment).isWord
  · exact h.name

theorem nests_reference (depth : Nat) {stop : List Char} (hstop : StopsName stop) :
    Nests depth depth (declaration.path.reference.toList ++ stop) := by
  have hpath := nests_path depth (by simp [QualifiedPath.components]) h.components_words hstop
  have htext : declaration.path.reference.toList ++ stop =
      [':', ':'] ++ ((joined "::" declaration.path.components).toList ++ stop) := by
    simp [QualifiedPath.reference, QualifiedPath.display, QualifiedPath.joinedBy]
  rw [htext]
  exact (nests_pathSeparator depth).append hpath

theorem nests_enumeratorReference (depth : Nat) {name : String}
    (hname : isIdentifier name.toList = true) {stop : List Char} (hstop : StopsName stop) :
    Nests depth depth ((declaration.enumeratorReference name).toList ++ stop) := by
  have htext : (declaration.enumeratorReference name).toList ++ stop =
      (declaration.path.reference.toList ++ [':', ':']) ++ (name.toList ++ stop) := by
    simp [Declaration.enumeratorReference]
  rw [htext]
  exact (h.nests_reference depth stopsName_pathSeparator).append (hstop depth _ hname)

/-- A signature refers to the enum once, between fixed pieces of code. The piece behind it starts with
what ends the name. -/
theorem nests_signature (stop next : String) {start tail finish : String} {after : Nat}
    (hstart : settles 0 0 start = true) (hstop : StopsName stop.toList) (htail : tail = stop ++ next)
    (hfinish : settles 0 after (next ++ finish) = true) :
    Nests 0 after (start ++ declaration.path.reference ++ tail ++ finish).toList := by
  have htext : (start ++ declaration.path.reference ++ tail ++ finish).toList =
      start.toList ++ (declaration.path.reference.toList ++ stop.toList) ++
        (next ++ finish).toList := by
    simp [htail]
  rw [htext]
  exact ((nests_code 0 hstart).append (h.nests_reference 0 hstop)).append (nests_fixed hfinish)

theorem nests_valueCondition (depth : Nat) {name : String} (hname : isIdentifier name.toList = true) :
    Nests depth (depth + 1)
      ("if (" ++ ("value == " ++ declaration.enumeratorReference name) ++ ") \x7b").toList := by
  have htext : ("if (" ++ ("value == " ++ declaration.enumeratorReference name) ++ ") \x7b").toList =
      "if (value == ".toList ++ ((declaration.enumeratorReference name).toList ++ [')']) ++
        " \x7b".toList := by
    simp
  have hreference := h.nests_enumeratorReference depth hname (stopsName_mark (by decide : ')' ∈ _))
  rw [htext]
  exact ((nests_code depth (by decide)).append hreference).append (nests_opening depth (by decide))

theorem nests_assignment (depth : Nat) {name : String} (hname : isIdentifier name.toList = true) :
    Nests depth depth ("value = " ++ declaration.enumeratorReference name ++ ";").toList := by
  have htext : ("value = " ++ declaration.enumeratorReference name ++ ";").toList =
      "value = ".toList ++ ((declaration.enumeratorReference name).toList ++ [';']) := by
    simp
  have hreference := h.nests_enumeratorReference depth hname (stopsName_mark (by decide : ';' ∈ _))
  rw [htext]
  exact (nests_code depth (by decide)).append hreference

theorem values_words (kind : Conversion) :
    ∀ entry ∈ declaration.values kind, isIdentifier entry.1.toList = true := by
  intro entry hentry
  obtain ⟨enumerator, henumerator, rfl⟩ := List.mem_map.1 hentry
  exact h.enumerators enumerator henumerator

theorem lineFeed_notMem_display : '\n' ∉ declaration.path.display.toList :=
  Source.lineFeed_notMem_display h.components_words

end Declaration.Spelled

namespace Scan

theorem nests_textCondition (depth : Nat) (value : String) :
    Nests depth (depth + 1) ("if (" ++ ("text == " ++ quote value) ++ ") \x7b").toList := by
  have htext : ("if (" ++ ("text == " ++ quote value) ++ ") \x7b").toList =
      "if (text == ".toList ++ (quote value).toList ++ ") \x7b".toList := by
    simp
  rw [htext]
  exact ((nests_code depth (by decide)).append (nests_quote depth value)).append
    (nests_opening depth (by decide))

/-- A statement with one literal in it. -/
theorem nests_literal (depth : Nat) {start finish : String} (hstart : settles 0 0 start = true)
    (hfinish : settles 0 0 finish = true) (value : String) :
    Nests depth depth (start ++ quote value ++ finish).toList := by
  rw [String.toList_append, String.toList_append]
  exact ((nests_code depth hstart).append (nests_quote depth value)).append
    (nests_code depth hfinish)

end Scan

namespace Declaration.Spelled

variable {declaration : Declaration} (h : declaration.Spelled) (indent : Indent)
include h

theorem nests_toStringSignature {finish : String} {after : Nat}
    (hfinish : settles 0 after (" noexcept" ++ finish) = true) :
    Nests 0 after (StringConverter.toStringSignature declaration ++ finish).toList := by
  unfold StringConverter.toStringSignature
  exact h.nests_signature " value)" " noexcept" (by decide) stopsName_parameter (by decide) hfinish

theorem nests_fromStringSignature {finish : String} {after : Nat}
    (hfinish : settles 0 after (" value) noexcept" ++ finish) = true) :
    Nests 0 after (StringConverter.fromStringSignature declaration ++ finish).toList := by
  unfold StringConverter.fromStringSignature
  exact h.nests_signature "&" " value) noexcept" (by decide) stopsName_ampersand (by decide) hfinish

theorem inert_toStringLines :
    Inert (renderLines indent (StringConverter.toStringLines declaration)).toList := by
  refine nests_function indent (h.nests_toStringSignature (by decide)) ?_
  refine nests_renderLines_append indent (nests_renderLines_flatMap indent ?_)
    (nests_renderLines_cons indent (nests_code 1 (by decide)) (.nil 1))
  intro entry hentry
  refine nests_conditional indent 1 (h.nests_valueCondition 1 (h.values_words .string entry hentry)) ?_
  have hreturn : Nests 2 2 ("return " ++ quote entry.2 ++ ";").toList :=
    nests_literal 2 (by decide) (by decide) entry.2
  simpa using hreturn

theorem inert_fromStringLines :
    Inert (renderLines indent (StringConverter.fromStringLines declaration)).toList := by
  refine nests_function indent (h.nests_fromStringSignature (by decide)) ?_
  refine nests_renderLines_append indent (nests_renderLines_flatMap indent ?_)
    (nests_renderLines_cons indent (nests_code 1 (by decide)) (.nil 1))
  intro entry hentry
  refine nests_conditional indent 1 (nests_textCondition 1 entry.2) ?_
  have hvalue := h.nests_assignment 2 (h.values_words .string entry hentry)
  have hreturn : Nests 2 2 "return true;".toList := nests_code 2 (by decide)
  simp only [List.mem_cons, List.not_mem_nil, or_false, forall_eq_or_imp, forall_eq]
  exact ⟨hvalue, hreturn⟩

theorem inert_stringSource : Inert (StringConverter.write indent declaration).source.toList :=
  nests_renderLines_append indent
    (nests_renderLines_append indent (h.inert_toStringLines indent)
      (nests_renderLines_cons indent (.nil 0) (.nil 0)))
    (h.inert_fromStringLines indent)

theorem inert_stringHeader : Inert (StringConverter.write indent declaration).header.toList := by
  have hopen : "/// Canonical string of a `" = "//" ++ "/ Canonical string of a `" := by decide
  have hclose : "` value; empty for values without a name.\n" =
      "` value; empty for values without a name." ++ "\n" := by decide
  have hparse : "/// Parse `text` into `value`. Returns false and leaves `value` untouched on failure.\n" =
      "//" ++ "/ Parse `text` into `value`. Returns false and leaves `value` untouched on failure." ++
        "\n" := by decide
  have htext : (StringConverter.write indent declaration).header =
      ("//" ++ ("/ Canonical string of a `" ++ declaration.path.display ++
        "` value; empty for values without a name.") ++ "\n") ++
      "[[nodiscard]] " ++ (StringConverter.toStringSignature declaration ++ ";\n") ++ "\n" ++
      ("//" ++ "/ Parse `text` into `value`. Returns false and leaves `value` untouched on failure." ++
        "\n") ++
      "[[nodiscard]] " ++ (StringConverter.fromStringSignature declaration ++ ";\n") := by
    change StringConverter.header declaration = _
    unfold StringConverter.header
    rw [hopen, hclose, hparse]
    simp only [String.append_assoc]
  have hcomment : '\n' ∉ ("/ Canonical string of a `" ++ declaration.path.display ++
      "` value; empty for values without a name.").toList := by
    have hdisplay := h.lineFeed_notMem_display
    simp [hdisplay]
  have hto := h.nests_toStringSignature (by decide : settles 0 0 (" noexcept" ++ ";\n") = true)
  have hfrom := h.nests_fromStringSignature
    (by decide : settles 0 0 (" value) noexcept" ++ ";\n") = true)
  have hattribute : Inert "[[nodiscard]] ".toList := nests_code 0 (by decide)
  have hfeed : Inert "\n".toList := nests_code 0 (by decide)
  rw [htext]
  exact (((((inert_comment hcomment).followed hattribute).followed hto).followed hfeed).followed
    (inert_comment (by decide))).followed hattribute |>.followed hfrom

theorem nests_toJsonSignature {finish : String} {after : Nat}
    (hfinish : settles 0 after (" value)" ++ finish) = true) :
    Nests 0 after (JsonConverter.toJsonSignature declaration ++ finish).toList := by
  unfold JsonConverter.toJsonSignature
  exact h.nests_signature "&" " value)" (by decide) stopsName_ampersand (by decide) hfinish

theorem nests_fromJsonSignature {finish : String} {after : Nat}
    (hfinish : settles 0 after (" value)" ++ finish) = true) :
    Nests 0 after (JsonConverter.fromJsonSignature declaration ++ finish).toList := by
  unfold JsonConverter.fromJsonSignature
  exact h.nests_signature "&" " value)" (by decide) stopsName_ampersand (by decide) hfinish

theorem inert_jsonHeader : Inert (JsonConverter.write indent declaration).header.toList := by
  have hto := h.nests_toJsonSignature (by decide : settles 0 0 (" value)" ++ ";\n") = true)
  have hfrom := h.nests_fromJsonSignature (by decide : settles 0 0 (" value)" ++ ";\n") = true)
  have htext : (JsonConverter.write indent declaration).header =
      (JsonConverter.toJsonSignature declaration ++ ";\n") ++
        (JsonConverter.fromJsonSignature declaration ++ ";\n") := by
    change JsonConverter.header declaration = _
    unfold JsonConverter.header
    simp only [String.append_assoc]
  rw [htext]
  exact hto.followed hfrom

theorem inert_toJsonLines :
    Inert (renderLines indent (JsonConverter.toJsonLines declaration)).toList := by
  have hthrow : Nests 1 1 ("throw std::invalid_argument(std::string(\"unnamed value of \") + " ++
      quote declaration.path.display ++ ");").toList := by
    have hstart : "throw std::invalid_argument(std::string(\"unnamed value of \") + " =
        "throw std::invalid_argument(std::string(" ++ quote "unnamed value of " ++ ") + " := by decide
    rw [hstart]
    exact ((nests_literal 1 (by decide) (by decide) _).followed (nests_quote 1 _)).followed
      (nests_code 1 (by decide))
  refine nests_function indent (h.nests_toJsonSignature (by decide)) ?_
  refine nests_renderLines_append indent (nests_renderLines_flatMap indent ?_)
    (nests_renderLines_cons indent hthrow (.nil 1))
  intro entry hentry
  refine nests_conditional indent 1 (h.nests_valueCondition 1 (h.values_words .json entry hentry)) ?_
  have hvalue : Nests 2 2 ("json = " ++ quote entry.2 ++ ";").toList :=
    nests_literal 2 (by decide) (by decide) entry.2
  have hreturn : Nests 2 2 "return;".toList := nests_code 2 (by decide)
  simp only [List.mem_cons, List.not_mem_nil, or_false, forall_eq_or_imp, forall_eq]
  exact ⟨hvalue, hreturn⟩

theorem inert_fromJsonLines :
    Inert (renderLines indent (JsonConverter.fromJsonLines declaration)).toList := by
  have hthrow : Nests 1 1 ("throw std::invalid_argument(std::string(\"invalid \") + " ++
      quote declaration.path.display ++ " + \" value: \" + json.dump());").toList := by
    have hstart : "throw std::invalid_argument(std::string(\"invalid \") + " =
        "throw std::invalid_argument(std::string(" ++ quote "invalid " ++ ") + " := by decide
    have hfinish : " + \" value: \" + json.dump());" =
        " + " ++ quote " value: " ++ " + json.dump());" := by decide
    rw [hstart, hfinish]
    exact ((nests_literal 1 (by decide) (by decide) _).followed (nests_quote 1 _)).followed
      (nests_literal 1 (by decide) (by decide) _)
  refine nests_function indent (h.nests_fromJsonSignature (by decide)) ?_
  refine nests_renderLines_append indent
    (nests_renderLines_cons indent (nests_opening 1 (by decide))
      (nests_renderLines_cons indent (nests_code 2 (by decide))
        (nests_renderLines_flatMap indent ?_)))
    (nests_renderLines_cons indent (nests_closing 1) (nests_renderLines_cons indent hthrow (.nil 1)))
  intro entry hentry
  refine nests_conditional indent 2 (nests_textCondition 2 entry.2) ?_
  have hvalue := h.nests_assignment 3 (h.values_words .json entry hentry)
  have hreturn : Nests 3 3 "return;".toList := nests_code 3 (by decide)
  simp only [List.mem_cons, List.not_mem_nil, or_false, forall_eq_or_imp, forall_eq]
  exact ⟨hvalue, hreturn⟩

theorem inert_jsonSource : Inert (JsonConverter.write indent declaration).source.toList :=
  nests_renderLines_append indent
    (nests_renderLines_append indent (h.inert_toJsonLines indent)
      (nests_renderLines_cons indent (.nil 0) (.nil 0)))
    (h.inert_fromJsonLines indent)

end Declaration.Spelled

end EnumConverter
