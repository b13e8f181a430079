import EnumConverter.Conversion
import EnumConverter.Scope
import EnumConverter.Emit.Registry
import EnumConverter.Proofs.Emit.Literal
import EnumConverter.Proofs.Emit.Statement
import EnumConverter.Proofs.Spelling.Word

namespace EnumConverter

/-- The name of the function from enumerators to values. -/
def Conversion.encoder : Conversion → String
  | .string => "to_string"
  | .json => "to_json"

/-- The name of the function from values to enumerators. -/
def Conversion.decoder : Conversion → String
  | .string => "from_string"
  | .json => "from_json"

namespace Emit

open Text Source

/-- The enumerator of an enum to which code refers. -/
def enumerator? (path : QualifiedPath) (text : String) : Option String :=
  (between? (path.reference ++ "::") "" text).filter (isIdentifier ·.toList)

/-- The value that a statement makes the result. -/
def result? (text : String) : Option String :=
  (between? "return " ";" text <|> between? "json = " ";" text).bind literal?

/-- The enumerator that a statement makes the result. -/
def assigned? (path : QualifiedPath) (text : String) : Option String :=
  (between? "value = " ";" text).bind (enumerator? path)

/-- What the header of a conditional compares a variable with. -/
def compared? (subject header : String) : Option String :=
  (between? "if (" ")" header).bind (between? (subject ++ " == ") "")

/-- Whether a statement ends the call of a function. -/
def leaves (text : String) : Bool :=
  (dropStart? "return".toList text.toList).isSome || (dropStart? "throw".toList text.toList).isSome

/-- Whether a statement ends the call of a function whose result is already stored. -/
def isExit (text : String) : Bool :=
  text = "return;" || text = "return true;"

theorem isExit_of_leaves {text : String} (h : leaves text = false) : isExit text = false := by
  rw [Bool.eq_false_iff]
  intro hexit
  have hexits : ∀ text ∈ ["return;", "return true;"], leaves text = true := by decide
  rw [hexits text (by simpa [isExit] using hexit)] at h
  contradiction

/-- The name of a function with a signature. -/
def functionName (signature : String) : String :=
  let start := signature.toList.takeWhile (· ≠ '(')
  String.ofList (start.reverse.takeWhile (· ≠ ' ')).reverse

namespace Guarded

/-- The function in which a statement stands. -/
def function? (statement : Guarded) : Option String :=
  statement.blocks.getLast?.map functionName

/-- The headers of the conditionals around a statement, the innermost first. -/
def conditions (statement : Guarded) : List String :=
  statement.blocks.dropLast

end Guarded

/-- The statements of a function. -/
def body? (function code : String) : Option (List Guarded) :=
  (statements? code).map (·.filter (·.function? = some function))

/-- The branches in which a variable is compared, with what it is compared with. A statement that only
ends the call is left out. -/
def branches (subject : String) (body : List Guarded) : List (String × String) :=
  body.filterMap fun statement =>
    if isExit statement.text then none
    else (statement.conditions.head?.bind (compared? subject)).map (·, statement.text)

/-- The enumerator and the value of a branch of an encoder. -/
def encoderPair? (path : QualifiedPath) (found : String × String) : Option (String × String) := do
  return (← enumerator? path found.1, ← result? found.2)

/-- The enumerator and the value of a branch of a decoder. -/
def decoderPair? (path : QualifiedPath) (found : String × String) : Option (String × String) := do
  return (← assigned? path found.2, ← literal? found.1)

/-- The enumerators and values in the branches of an encoder. There are none if a branch has another
form. -/
def encoderChain? (kind : Conversion) (path : QualifiedPath) (code : String) :
    Option (List (String × String)) :=
  (body? kind.encoder code).bind fun body => (branches "value" body).mapM (encoderPair? path)

/-- The enumerators and values in the branches of a decoder. There are none if a branch has another
form. -/
def decoderChain? (kind : Conversion) (path : QualifiedPath) (code : String) :
    Option (List (String × String)) :=
  (body? kind.decoder code).bind fun body => (branches "text" body).mapM (decoderPair? path)

/-- The statements that a call executes, if the conditions for which `holds` is true are met. -/
def executed (holds : String → Bool) : List Guarded → List String
  | [] => []
  | statement :: rest =>
    if statement.conditions.all holds then
      if leaves statement.text then [statement.text] else statement.text :: executed holds rest
    else executed holds rest

/-- Whether a condition is met when a decoder is called with a value, which is a string also in JSON. -/
def metBy (value header : String) : Bool :=
  header = "if (json.is_string())" || (compared? "text" header).bind literal? = some value

/-- The enumerator that a decoder gives for a value. -/
def decoded? (kind : Conversion) (path : QualifiedPath) (code value : String) : Option String :=
  (body? kind.decoder code).bind fun body =>
    (executed (metBy value) body).findSome? (assigned? path)

theorem enumerator?_reference (path : QualifiedPath) {name : String}
    (h : isIdentifier name.toList = true) :
    enumerator? path (path.reference ++ "::" ++ name) = some name := by
  have hbetween := between?_append (path.reference ++ "::") name ""
  rw [String.append_empty] at hbetween
  simp [enumerator?, hbetween, h]

theorem assigned?_assignment (path : QualifiedPath) {name : String}
    (h : isIdentifier name.toList = true) :
    assigned? path ("value = " ++ (path.reference ++ "::" ++ name) ++ ";") = some name := by
  rw [assigned?, between?_append, Option.bind_some, enumerator?_reference path h]

theorem compared?_header (subject compared : String) :
    compared? subject ("if (" ++ (subject ++ " == " ++ compared) ++ ")") = some compared := by
  have hbetween := between?_append (subject ++ " == ") compared ""
  rw [String.append_empty] at hbetween
  rw [compared?, between?_append, Option.bind_some, hbetween]

/-- A statement with one literal in it. -/
theorem isStatement_literal {start : String} (hstart : IsLine start) (value : String) {ending : String}
    (hending : '\n' ∉ ending.toList) (hlast : ending.toList.getLast? = some ';') :
    IsStatement (start ++ quote value ++ ending) :=
  (hstart.append (lineFeed_notMem_quote value)).statement hending hlast

theorem metBy_header (value other : String) :
    metBy value ("if (" ++ ("text" ++ " == " ++ quote other) ++ ")") = decide (other = value) := by
  have hcompared := compared?_header "text" (quote other)
  have hother : "if (" ++ ("text" ++ " == " ++ quote other) ++ ")" ≠ "if (json.is_string())" := by
    intro heq
    have hnone : compared? "text" "if (json.is_string())" = none := by decide
    rw [heq, hnone] at hcompared
    contradiction
  rw [metBy, hcompared, Option.bind_some, literal?_quote, decide_eq_false hother, Bool.false_or]
  simp only [Option.some.injEq]

theorem mapM_map_eq_some {α β : Type} {read : β → Option α} {write : α → β} {items : List α}
    (h : ∀ item ∈ items, read (write item) = some item) :
    (items.map write).mapM read = some items := by
  have hread : ∀ item ∈ items, (read ∘ write) item = pure (id item) := h
  rw [List.mapM_map, mapM_eq_pure hread, List.map_id]
  rfl

section Functions

variable {body : List Guarded} {function : String}
  (h : ∀ statement ∈ body, statement.function? = some function)
include h

theorem filter_function : body.filter (·.function? = some function) = body :=
  List.filter_eq_self.2 fun statement hstatement => decide_eq_true (h statement hstatement)

theorem filter_function_of_ne {other : String} (hne : function ≠ other) :
    body.filter (·.function? = some other) = [] := by
  refine List.filter_eq_nil_iff.2 fun statement hstatement => ?_
  simp [h statement hstatement, hne]

end Functions

section Branches

variable {α : Type} {blocks : List String} (items : List α)

theorem conditions_cons (hblocks : blocks ≠ []) (header text : String) :
    (Guarded.mk (header :: blocks) text).conditions = header :: blocks.dropLast :=
  List.dropLast_cons_of_ne_nil hblocks

theorem function?_of_mem_branch (hblocks : blocks ≠ []) {condition : String} {texts : List String} :
    ∀ statement ∈ branch blocks condition texts,
      statement.function? = blocks.getLast?.map functionName := by
  intro statement hstatement
  obtain ⟨text, -, rfl⟩ := List.mem_map.1 hstatement
  rw [Guarded.function?, List.getLast?_cons_of_ne_nil hblocks]

theorem branches_append (subject : String) (first second : List Guarded) :
    branches subject (first ++ second) = branches subject first ++ branches subject second :=
  List.filterMap_append

theorem branches_branch (subject : String) (hblocks : blocks ≠ []) (compared : String) {text : String}
    {exits : List String} (htext : isExit text = false) (hexits : ∀ exit ∈ exits, isExit exit = true) :
    branches subject (branch blocks (subject ++ " == " ++ compared) (text :: exits)) =
      [(compared, text)] := by
  have hrest : branches subject (branch blocks (subject ++ " == " ++ compared) exits) = [] := by
    refine List.filterMap_eq_nil_iff.2 fun statement hstatement => ?_
    obtain ⟨exit, hexit, rfl⟩ := List.mem_map.1 hstatement
    exact if_pos (hexits exit hexit)
  rw [branches, branch] at hrest ⊢
  rw [List.map_cons, List.filterMap_cons, hrest]
  simp only [htext, conditions_cons hblocks, List.head?_cons, Option.bind_some, compared?_header,
    Option.map_some, Bool.false_eq_true, if_false]

/-- A chain has one branch for each item. -/
theorem branches_flatMap (subject : String) (hblocks : blocks ≠ []) (compared text : α → String)
    {exits : List String} (htext : ∀ item, isExit (text item) = false)
    (hexits : ∀ exit ∈ exits, isExit exit = true) :
    branches subject (items.flatMap fun item =>
        branch blocks (subject ++ " == " ++ compared item) (text item :: exits)) =
      items.map fun item => (compared item, text item) := by
  induction items with
  | nil => rfl
  | cons item items ih =>
    rw [List.flatMap_cons, branches_append, branches_branch subject hblocks _ (htext item) hexits, ih]
    rfl

/-- The first branch whose condition is met decides. -/
theorem executed_flatMap {holds : String → Bool} (hblocks : blocks ≠ [])
    (houter : blocks.dropLast.all holds = true) (condition text : α → String) {exit : String}
    (htext : ∀ item, leaves (text item) = false) (hexit : leaves exit = true) (rest : List Guarded) :
    executed holds
        (items.flatMap (fun item => branch blocks (condition item) [text item, exit]) ++ rest) =
      (items.find? fun item => holds ("if (" ++ condition item ++ ")")).elim (executed holds rest)
        fun item => [text item, exit] := by
  induction items with
  | nil => rfl
  | cons item items ih =>
    rw [List.flatMap_cons, List.append_assoc]
    cases hitem : holds ("if (" ++ condition item ++ ")") with
    | true => simp [branch, executed, conditions_cons hblocks, hitem, houter, htext, hexit]
    | false =>
      rw [List.find?_cons_of_neg (by simp [hitem]), ← ih]
      simp [branch, executed, conditions_cons hblocks, hitem]

end Branches

end Emit

end EnumConverter
