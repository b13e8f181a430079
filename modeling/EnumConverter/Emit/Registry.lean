import EnumConverter.Emit.Code
import EnumConverter.Emit.Converter

namespace EnumConverter.Emit

namespace StringConverter

/-- The function from a value to its string. -/
def toStringSignature (declaration : Declaration) : String :=
  "std::string_view to_string(" ++ declaration.path.reference ++ " value) noexcept"

/-- The function from a string to a value. -/
def fromStringSignature (declaration : Declaration) : String :=
  "bool from_string(std::string_view text, " ++ declaration.path.reference ++ "& value) noexcept"

/-- The declarations of both functions. -/
def header (declaration : Declaration) : String :=
  "/// Canonical string of a `" ++ declaration.path.display ++
    "` value; empty for values without a name.\n" ++
  "[[nodiscard]] " ++ toStringSignature declaration ++ ";\n" ++
  "\n" ++
  "/// Parse `text` into `value`. Returns false and leaves `value` untouched on failure.\n" ++
  "[[nodiscard]] " ++ fromStringSignature declaration ++ ";\n"

/-- The definition of the function from a value to its string. -/
def toStringLines (declaration : Declaration) : List CodeLine :=
  function (toStringSignature declaration)
    ((declaration.values .string).flatMap (fun (name, value) =>
        conditional 1 ("value == " ++ declaration.enumeratorReference name)
          ["return " ++ quote value ++ ";"])
      ++ [⟨1, "return \x7b\x7d;"⟩])

/-- The definition of the function from a string to a value. -/
def fromStringLines (declaration : Declaration) : List CodeLine :=
  function (fromStringSignature declaration)
    ((declaration.values .string).flatMap (fun (name, value) =>
        conditional 1 ("text == " ++ quote value)
          ["value = " ++ declaration.enumeratorReference name ++ ";", "return true;"])
      ++ [⟨1, "return false;"⟩])

/-- The definitions of both functions. -/
def sourceLines (declaration : Declaration) : List CodeLine :=
  toStringLines declaration ++ [⟨0, ""⟩] ++ fromStringLines declaration

/-- The string converter of an enum. -/
def write (indent : Indent) (declaration : Declaration) : Converter where
  kind := .string
  header := header declaration
  source := renderLines indent (sourceLines declaration)
  headerIncludes := ["<string_view>"]

/-- Writes string converters. -/
def emitter : Emitter where
  kind := .string
  name := "string serialization"
  emit := emitChecked .string write

end StringConverter

namespace JsonConverter

/-- The function from a value to JSON. -/
def toJsonSignature (declaration : Declaration) : String :=
  "void to_json(nlohmann::json& json, const " ++ declaration.path.reference ++ "& value)"

/-- The function from JSON to a value. -/
def fromJsonSignature (declaration : Declaration) : String :=
  "void from_json(const nlohmann::json& json, " ++ declaration.path.reference ++ "& value)"

/-- The declarations of both functions. -/
def header (declaration : Declaration) : String :=
  toJsonSignature declaration ++ ";\n" ++ fromJsonSignature declaration ++ ";\n"

/-- The definition of the function from a value to JSON. -/
def toJsonLines (declaration : Declaration) : List CodeLine :=
  function (toJsonSignature declaration)
    ((declaration.values .json).flatMap (fun (name, value) =>
        conditional 1 ("value == " ++ declaration.enumeratorReference name)
          ["json = " ++ quote value ++ ";", "return;"])
      ++ [⟨1, "throw std::invalid_argument(std::string(\"unnamed value of \") + " ++
            quote declaration.path.display ++ ");"⟩])

/-- The definition of the function from JSON to a value. -/
def fromJsonLines (declaration : Declaration) : List CodeLine :=
  function (fromJsonSignature declaration)
    (⟨1, "if (json.is_string()) \x7b"⟩ ::
      ⟨2, "const auto& text = json.get_ref<const std::string&>();"⟩ ::
      (declaration.values .json).flatMap (fun (name, value) =>
        conditional 2 ("text == " ++ quote value)
          ["value = " ++ declaration.enumeratorReference name ++ ";", "return;"])
      ++ [⟨1, "\x7d"⟩,
          ⟨1, "throw std::invalid_argument(std::string(\"invalid \") + " ++
            quote declaration.path.display ++ " + \" value: \" + json.dump());"⟩])

/-- The definitions of both functions. -/
def sourceLines (declaration : Declaration) : List CodeLine :=
  toJsonLines declaration ++ [⟨0, ""⟩] ++ fromJsonLines declaration

/-- The JSON converter of an enum. -/
def write (indent : Indent) (declaration : Declaration) : Converter where
  kind := .json
  header := header declaration
  source := renderLines indent (sourceLines declaration)
  headerIncludes := ["<nlohmann/json.hpp>"]
  sourceIncludes := ["<stdexcept>", "<string>"]

/-- Writes JSON converters. -/
def emitter : Emitter where
  kind := .json
  name := "json serialization"
  emit := emitChecked .json write

end JsonConverter

/-- The emitters in use. -/
structure Registry where
  /-- The emitter for a conversion. -/
  emitter? : Conversion → Option Emitter

namespace Registry

/-- No emitter at all. -/
def empty : Registry where
  emitter? _ := none

/-- One more emitter, which takes the place of an earlier one for the same conversion. -/
def register (registry : Registry) (emitter : Emitter) : Registry where
  emitter? kind := if kind = emitter.kind then some emitter else registry.emitter? kind

/-- The emitters in the order of their conversions. -/
def toList (registry : Registry) : List Emitter :=
  Conversion.all.filterMap registry.emitter?

/-- The emitters for both conversions. -/
def builtin : Registry :=
  (empty.register StringConverter.emitter).register JsonConverter.emitter

/-- The converters that an enum requests, in the order of their conversions, or the first error. -/
def emit (registry : Registry) (indent : Indent) (declaration : Declaration) :
    Except EmitError (List Converter) :=
  declaration.requested.toList.mapM fun kind =>
    match registry.emitter? kind with
    | none => .error (.missingEmitter kind)
    | some emitter => emitter.emit indent declaration

end Registry

/-- The converter of an enum for one conversion. -/
def written (indent : Indent) (declaration : Declaration) : Conversion → Converter
  | .string => StringConverter.write indent declaration
  | .json => JsonConverter.write indent declaration

theorem emitChecked_eq {kind : Conversion} {write : Indent → Declaration → Converter}
    {indent : Indent} {declaration : Declaration} (hrequests : declaration.requests kind = true)
    (hne : declaration.enumerators ≠ []) :
    emitChecked kind write indent declaration = .ok (write indent declaration) := by
  simp [emitChecked, hrequests, hne]

theorem mapM_eq_pure {m : Type → Type} [Monad m] [LawfulMonad m] {α β : Type} {read : α → m β}
    {value : α → β} {items : List α} (h : ∀ item ∈ items, read item = pure (value item)) :
    items.mapM read = pure (items.map value) := by
  induction items with
  | nil => rfl
  | cons item items ih =>
    rw [List.mapM_cons, h item (by simp), ih fun other hother => h other (by simp [hother])]
    simp

theorem builtin_emit {declaration : Declaration} (indent : Indent)
    (hne : declaration.enumerators ≠ []) :
    Registry.builtin.emit indent declaration =
      .ok (declaration.requested.toList.map (written indent declaration)) := by
  refine mapM_eq_pure (m := Except EmitError) fun kind hkind => ?_
  have hrequests : declaration.requests kind = true := ConversionSet.mem_toList.1 hkind
  cases kind with
  | string => exact emitChecked_eq hrequests hne
  | json => exact emitChecked_eq hrequests hne

end EnumConverter.Emit
