import EnumConverter.Emit.Registry
import EnumConverter.Proofs.Emit.Chain

namespace EnumConverter

open Text Source Emit

/-- The names in an enum can be written into code, and its enumerators are told apart by their names. -/
structure Declaration.Convertible (declaration : Declaration) : Prop where
  components : ∀ name ∈ declaration.path.components, isIdentifier name.toList = true
  names : ∀ enumerator ∈ declaration.enumerators, isIdentifier enumerator.name.toList = true
  distinct : (declaration.enumerators.map (·.name)).Nodup
  ne_nil : declaration.enumerators ≠ []

namespace Emit

section Statements

variable (declaration : Declaration)

def encoderSignature : Conversion → String
  | .string => StringConverter.toStringSignature declaration
  | .json => JsonConverter.toJsonSignature declaration

/-- The statement that makes a value the result. -/
def resultText (value : String) : Conversion → String
  | .string => "return " ++ quote value ++ ";"
  | .json => "json = " ++ quote value ++ ";"

def encoderExits : Conversion → List String
  | .string => []
  | .json => ["return;"]

/-- The statement for what has no name. -/
def encoderEnd : Conversion → String
  | .string => "return \x7b\x7d;"
  | .json => "throw std::invalid_argument(std::string(\"unnamed value of \") + " ++
      quote declaration.path.display ++ ");"

def encoderStatements (kind : Conversion) : List Guarded :=
  (declaration.values kind).flatMap (fun entry =>
      branch [encoderSignature declaration kind]
        ("value" ++ " == " ++ declaration.enumeratorReference entry.1)
        (resultText entry.2 kind :: encoderExits kind)) ++
    [⟨[encoderSignature declaration kind], encoderEnd declaration kind⟩]

def decoderSignature : Conversion → String
  | .string => StringConverter.fromStringSignature declaration
  | .json => JsonConverter.fromJsonSignature declaration

/-- The blocks around the chain of a decoder. -/
def decoderBlocks : Conversion → List String
  | .string => [decoderSignature declaration .string]
  | .json => ["if (json.is_string())", decoderSignature declaration .json]

/-- What stands before the chain of a decoder. -/
def decoderStart : Conversion → List String
  | .string => []
  | .json => ["const auto& text = json.get_ref<const std::string&>();"]

/-- The statement that makes an enumerator the result. -/
def assignmentText (name : String) : String :=
  "value = " ++ declaration.enumeratorReference name ++ ";"

def decoderExit : Conversion → String
  | .string => "return true;"
  | .json => "return;"

/-- The statement for a value that no enumerator has. -/
def decoderEnd : Conversion → String
  | .string => "return false;"
  | .json => "throw std::invalid_argument(std::string(\"invalid \") + " ++
      quote declaration.path.display ++ " + \" value: \" + json.dump());"

def decoderStatements (kind : Conversion) : List Guarded :=
  (decoderStart kind).map (⟨decoderBlocks declaration kind, ·⟩) ++
    ((declaration.values kind).flatMap (fun entry =>
        branch (decoderBlocks declaration kind) ("text" ++ " == " ++ quote entry.2)
          [assignmentText declaration entry.1, decoderExit kind]) ++
      [⟨[decoderSignature declaration kind], decoderEnd declaration kind⟩])

theorem decoderBlocks_ne_nil (kind : Conversion) : decoderBlocks declaration kind ≠ [] := by
  cases kind <;> simp [decoderBlocks]

/-- The name of a function stands before its parameters. -/
theorem functionName_append {start name : String} (hstart : '(' ∈ start.toList)
    (hname : functionName start = name) (middle rest : String) :
    functionName (start ++ middle ++ rest) = name := by
  have htake (cs : List Char) : (start.toList ++ cs).takeWhile (· ≠ '(') =
      start.toList.takeWhile (· ≠ '(') := by
    obtain ⟨before, after, hsplit⟩ := List.append_of_mem hstart
    rw [hsplit]
    clear hsplit
    induction before with
    | nil => simp
    | cons c before ih =>
      rw [List.cons_append, List.cons_append, List.takeWhile_cons, ih, List.takeWhile_cons]
  rw [String.append_assoc, ← hname]
  simp only [functionName, String.toList_append, htake]

theorem functionName_encoderSignature (kind : Conversion) :
    functionName (encoderSignature declaration kind) = kind.encoder := by
  cases kind with
  | string => exact functionName_append (by decide) (by decide) _ _
  | json => exact functionName_append (by decide) (by decide) _ _

theorem functionName_decoderSignature (kind : Conversion) :
    functionName (decoderSignature declaration kind) = kind.decoder := by
  cases kind with
  | string => exact functionName_append (by decide) (by decide) _ _
  | json => exact functionName_append (by decide) (by decide) _ _

theorem function?_encoderStatements (kind : Conversion) :
    ∀ statement ∈ encoderStatements declaration kind, statement.function? = some kind.encoder := by
  have hname := functionName_encoderSignature declaration kind
  intro statement hstatement
  rw [encoderStatements, List.mem_append, List.mem_singleton] at hstatement
  obtain hstatement | rfl := hstatement
  · obtain ⟨entry, -, hstatement⟩ := List.mem_flatMap.1 hstatement
    rw [function?_of_mem_branch (by simp) statement hstatement]
    simp [hname]
  · simp [Guarded.function?, hname]

theorem function?_decoderStatements (kind : Conversion) :
    ∀ statement ∈ decoderStatements declaration kind, statement.function? = some kind.decoder := by
  have hname := functionName_decoderSignature declaration kind
  have hlast : (decoderBlocks declaration kind).getLast?.map functionName = some kind.decoder := by
    cases kind <;> simpa [decoderBlocks] using hname
  intro statement hstatement
  rw [decoderStatements, List.mem_append, List.mem_append, List.mem_singleton] at hstatement
  obtain hstatement | hstatement | rfl := hstatement
  · obtain ⟨text, -, rfl⟩ := List.mem_map.1 hstatement
    exact hlast
  · obtain ⟨entry, -, hstatement⟩ := List.mem_flatMap.1 hstatement
    rw [function?_of_mem_branch (decoderBlocks_ne_nil declaration kind) statement hstatement, hlast]
  · simp [Guarded.function?, hname]

theorem result?_resultText (value : String) (kind : Conversion) :
    result? (resultText value kind) = some value := by
  cases kind with
  | string => simp [result?, resultText, between?_append, literal?_quote]
  | json =>
    have hreturn : between? "return " ";" ("json = " ++ quote value ++ ";") = none :=
      between?_of_head _ _ (by decide) (by decide) (by decide)
    simp [result?, resultText, hreturn, between?_append, literal?_quote]

theorem isExit_resultText (value : String) (kind : Conversion) :
    isExit (resultText value kind) = false := by
  have hresult := result?_resultText value kind
  rw [Bool.eq_false_iff]
  intro hexit
  have hexits : ∀ text ∈ ["return;", "return true;"], result? text = none := by decide
  rw [hexits _ (by simpa [isExit] using hexit)] at hresult
  contradiction

theorem leaves_assignmentText (name : String) : leaves (assignmentText declaration name) = false := by
  simp [assignmentText, leaves, dropStart?]

theorem assigned?_decoderEnd (kind : Conversion) :
    assigned? declaration.path (decoderEnd declaration kind) = none := by
  have hnone : between? "value = " ";" (decoderEnd declaration kind) = none := by
    cases kind with
    | string => exact (by decide : between? "value = " ";" "return false;" = none)
    | json => exact between?_of_head _ _ (by decide) (by decide) (by decide)
  rw [assigned?, hnone, Option.bind_none]

theorem executed_decoderStart (kind : Conversion) (value : String) (rest : List Guarded) :
    executed (metBy value) ((decoderStart kind).map (⟨decoderBlocks declaration kind, ·⟩) ++ rest) =
      decoderStart kind ++ executed (metBy value) rest := by
  cases kind with
  | string => rfl
  | json =>
    have hstays : leaves "const auto& text = json.get_ref<const std::string&>();" = false := by decide
    simp [decoderStart, decoderBlocks, executed, Guarded.conditions, metBy, hstays]

/-- A call of the decoder assigns the first enumerator with the value and returns. -/
theorem executed_decoderStatements (kind : Conversion) (value : String) :
    executed (metBy value) (decoderStatements declaration kind) =
      decoderStart kind ++
        ((declaration.values kind).find? (·.2 = value)).elim [decoderEnd declaration kind] fun entry =>
          [assignmentText declaration entry.1, decoderExit kind] := by
  have houter : (decoderBlocks declaration kind).dropLast.all (metBy value) = true := by
    cases kind <;> simp [decoderBlocks, metBy]
  have hexit : leaves (decoderExit kind) = true := by cases kind <;> decide
  have hend : executed (metBy value)
      [⟨[decoderSignature declaration kind], decoderEnd declaration kind⟩] =
        [decoderEnd declaration kind] := by
    simp [executed, Guarded.conditions]
  have hchain := executed_flatMap (declaration.values kind) (decoderBlocks_ne_nil declaration kind)
    houter (fun entry => "text" ++ " == " ++ quote entry.2)
    (fun entry => assignmentText declaration entry.1)
    (fun entry => leaves_assignmentText declaration entry.1) hexit
    [⟨[decoderSignature declaration kind], decoderEnd declaration kind⟩]
  simp only [metBy_header, hend] at hchain
  simp only [decoderStatements, executed_decoderStart, hchain]

theorem branches_end (subject signature text : String) :
    branches subject [⟨[signature], text⟩] = [] := by
  simp [branches, Guarded.conditions]

theorem branches_encoderStatements (kind : Conversion) :
    branches "value" (encoderStatements declaration kind) =
      (declaration.values kind).map fun entry =>
        (declaration.enumeratorReference entry.1, resultText entry.2 kind) := by
  have hexits : ∀ exit ∈ encoderExits kind, isExit exit = true := by cases kind <;> decide
  have hblocks : [encoderSignature declaration kind] ≠ [] := by simp
  have hchain := branches_flatMap (declaration.values kind) "value" hblocks
    (fun entry => declaration.enumeratorReference entry.1) (fun entry => resultText entry.2 kind)
    (fun entry => isExit_resultText entry.2 kind) hexits
  simp only [encoderStatements, branches_append, branches_end, List.append_nil, hchain]

theorem branches_decoderStatements (kind : Conversion) :
    branches "text" (decoderStatements declaration kind) =
      (declaration.values kind).map fun entry =>
        (quote entry.2, assignmentText declaration entry.1) := by
  have htext (entry : String × String) : isExit (assignmentText declaration entry.1) = false :=
    isExit_of_leaves (leaves_assignmentText declaration entry.1)
  have hexits : ∀ exit ∈ [decoderExit kind], isExit exit = true := by cases kind <;> decide
  have hstart : branches "text" ((decoderStart kind).map (⟨decoderBlocks declaration kind, ·⟩)) =
      [] := by
    have hcompared : compared? "text" "if (json.is_string())" = none := by decide
    cases kind with
    | string => rfl
    | json => simp [branches, decoderStart, decoderBlocks, Guarded.conditions, hcompared]
  have hchain := branches_flatMap (declaration.values kind) "text"
    (decoderBlocks_ne_nil declaration kind) (fun entry => quote entry.2)
    (fun entry => assignmentText declaration entry.1) htext hexits
  simp only [decoderStatements, branches_append, hstart, branches_end, List.append_nil,
    List.nil_append, hchain]

end Statements

section Reading

variable {declaration : Declaration} (h : declaration.Convertible) (indent : Indent)
include h

theorem isIdentifier_values {kind : Conversion} {entry : String × String}
    (hentry : entry ∈ declaration.values kind) : isIdentifier entry.1.toList = true := by
  obtain ⟨enumerator, henumerator, rfl⟩ := List.mem_map.1 hentry
  exact h.names enumerator henumerator

theorem lineFeed_notMem_reference : '\n' ∉ declaration.path.reference.toList := by
  simp [QualifiedPath.reference, lineFeed_notMem_display h.components]

theorem lineFeed_notMem_enumeratorReference {kind : Conversion} {entry : String × String}
    (hentry : entry ∈ declaration.values kind) :
    '\n' ∉ (declaration.enumeratorReference entry.1).toList := by
  have hname := lineFeed_notMem_of_isIdentifier (isIdentifier_values h hentry)
  simp [Declaration.enumeratorReference, lineFeed_notMem_reference h, hname]

/-- A signature refers to the enum once, between fixed pieces of code. -/
theorem isLine_signature {start ending : String} (hstart : IsLine start)
    (hending : '\n' ∉ ending.toList) :
    IsLine (start ++ declaration.path.reference ++ ending ++ " \x7b") :=
  ((hstart.append (lineFeed_notMem_reference h)).append hending).append (by decide)

theorem isLine_encoderSignature (kind : Conversion) :
    IsLine (encoderSignature declaration kind ++ " \x7b") := by
  cases kind with
  | string => exact isLine_signature h (by decide) (by decide)
  | json => exact isLine_signature h (by decide) (by decide)

theorem isLine_decoderSignature (kind : Conversion) :
    IsLine (decoderSignature declaration kind ++ " \x7b") := by
  cases kind with
  | string => exact isLine_signature h (by decide) (by decide)
  | json => exact isLine_signature h (by decide) (by decide)

theorem reads_encoder (kind : Conversion) :
    Reads indent []
      (function (encoderSignature declaration kind)
        ((declaration.values kind).flatMap (fun entry =>
            conditional 1 ("value == " ++ declaration.enumeratorReference entry.1)
              (resultText entry.2 kind :: encoderExits kind)) ++
          [⟨1, encoderEnd declaration kind⟩]))
      (encoderStatements declaration kind) := by
  have hend : IsStatement (encoderEnd declaration kind) := by
    cases kind with
    | string => exact (by decide : IsStatement "return \x7b\x7d;")
    | json => exact isStatement_literal (by decide) _ (by decide) (by decide)
  refine reads_function (isLine_encoderSignature h kind) (.append (.flatMap ?_) (.cons 1 hend .nil))
  intro entry hentry
  have hreference := lineFeed_notMem_enumeratorReference h hentry
  have hresult : IsStatement (resultText entry.2 kind) := by
    cases kind <;> exact isStatement_literal (by decide) _ (by decide) (by decide)
  have hexits : ∀ text ∈ encoderExits kind, IsStatement text := by cases kind <;> decide
  exact reads_conditional 1 (by simpa using hreference) (List.forall_mem_cons.2 ⟨hresult, hexits⟩)

theorem reads_decoderChain (kind : Conversion) (depth : Nat) :
    Reads indent (decoderBlocks declaration kind)
      ((declaration.values kind).flatMap fun entry =>
        conditional depth ("text == " ++ quote entry.2)
          [assignmentText declaration entry.1, decoderExit kind])
      ((declaration.values kind).flatMap fun entry =>
        branch (decoderBlocks declaration kind) ("text" ++ " == " ++ quote entry.2)
          [assignmentText declaration entry.1, decoderExit kind]) := by
  refine .flatMap fun entry hentry => reads_conditional depth ?_ ?_
  · simpa using lineFeed_notMem_quote entry.2
  · have hreference := lineFeed_notMem_enumeratorReference h hentry
    have hassign : IsStatement (assignmentText declaration entry.1) :=
      (IsLine.append (by decide) hreference).statement (by decide) (by decide)
    have hexit : IsStatement (decoderExit kind) := by cases kind <;> decide
    simpa using ⟨hassign, hexit⟩

theorem reads_fromStringLines :
    Reads indent [] (StringConverter.fromStringLines declaration)
      (decoderStatements declaration .string) := by
  have hend : IsStatement (decoderEnd declaration .string) := (by decide : IsStatement "return false;")
  exact reads_function (isLine_decoderSignature h .string)
    ((reads_decoderChain h indent .string 1).append (.cons 1 hend .nil))

theorem reads_fromJsonLines :
    Reads indent [] (JsonConverter.fromJsonLines declaration)
      (decoderStatements declaration .json) := by
  have hstart : IsStatement "const auto& text = json.get_ref<const std::string&>();" := by decide
  have hend : IsStatement (decoderEnd declaration .json) :=
    isStatement_literal (by decide) _ (by decide) (by decide)
  have hheader : IsLine ("if (json.is_string())" ++ " \x7b") := by decide
  refine reads_function (isLine_decoderSignature h .json) ?_
  -- The chain stands in a conditional of its own, and what is no string goes on to the end.
  have hblock := Reads.block 1 hheader (.cons 2 hstart (reads_decoderChain h indent .json 2))
  have hbody := hblock.append (.cons 1 hend .nil)
  simp only [List.append_assoc, List.cons_append, List.nil_append] at hbody
  exact hbody

/-- The statements of a converter are those of its encoder and those of its decoder. -/
theorem statements?_written (kind : Conversion) :
    statements? (written indent declaration kind).source =
      some (encoderStatements declaration kind ++ decoderStatements declaration kind) := by
  have hencoder := (reads_encoder h indent kind).append (reads_blank 0)
  rw [List.append_nil] at hencoder
  cases kind with
  | string => exact statements?_renderLines (hencoder.append (reads_fromStringLines h indent))
  | json => exact statements?_renderLines (hencoder.append (reads_fromJsonLines h indent))

theorem body?_encoder (kind : Conversion) :
    body? kind.encoder (written indent declaration kind).source =
      some (encoderStatements declaration kind) := by
  have hne : kind.decoder ≠ kind.encoder := by cases kind <;> decide
  rw [body?, statements?_written h, Option.map_some, List.filter_append,
    filter_function (function?_encoderStatements declaration kind),
    filter_function_of_ne (function?_decoderStatements declaration kind) hne, List.append_nil]

theorem body?_decoder (kind : Conversion) :
    body? kind.decoder (written indent declaration kind).source =
      some (decoderStatements declaration kind) := by
  have hne : kind.encoder ≠ kind.decoder := by cases kind <;> decide
  rw [body?, statements?_written h, Option.map_some, List.filter_append,
    filter_function_of_ne (function?_encoderStatements declaration kind) hne,
    filter_function (function?_decoderStatements declaration kind), List.nil_append]

/-- The branches of the encoder are the enumerators with their values. -/
theorem encoderChain?_written (kind : Conversion) :
    encoderChain? kind declaration.path (written indent declaration kind).source =
      some (declaration.values kind) := by
  rw [encoderChain?, body?_encoder h, Option.bind_some, branches_encoderStatements]
  refine mapM_map_eq_some fun entry hentry => ?_
  have hname := enumerator?_reference declaration.path (isIdentifier_values h hentry)
  rw [encoderPair?, Declaration.enumeratorReference, hname, result?_resultText]
  rfl

theorem assigned?_assignmentText {kind : Conversion} {entry : String × String}
    (hentry : entry ∈ declaration.values kind) :
    assigned? declaration.path (assignmentText declaration entry.1) = some entry.1 :=
  assigned?_assignment declaration.path (isIdentifier_values h hentry)

/-- The branches of the decoder are the enumerators with their values. -/
theorem decoderChain?_written (kind : Conversion) :
    decoderChain? kind declaration.path (written indent declaration kind).source =
      some (declaration.values kind) := by
  rw [decoderChain?, body?_decoder h, Option.bind_some, branches_decoderStatements]
  refine mapM_map_eq_some fun entry hentry => ?_
  rw [decoderPair?, assigned?_assignmentText h hentry, literal?_quote]
  rfl

/-- The decoder gives the first enumerator with the value. -/
theorem decoded?_written (kind : Conversion) (value : String) :
    decoded? kind declaration.path (written indent declaration kind).source value =
      ((declaration.values kind).find? (·.2 = value)).map (·.1) := by
  have hstart : (decoderStart kind).findSome? (assigned? declaration.path) = none := by
    cases kind with
    | string => rfl
    | json =>
      have hnone : between? "value = " ";" "const auto& text = json.get_ref<const std::string&>();" =
          none := by decide
      rw [decoderStart, List.findSome?_singleton, assigned?, hnone, Option.bind_none]
  rw [decoded?, body?_decoder h, Option.bind_some, executed_decoderStatements,
    List.findSome?_append, hstart, Option.none_or]
  cases hfind : (declaration.values kind).find? (·.2 = value) with
  | none => simp [assigned?_decoderEnd]
  | some entry => simp [assigned?_assignmentText h (List.mem_of_find?_eq_some hfind)]

end Reading

end Emit

end EnumConverter
