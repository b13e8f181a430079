import EnumConverter.Emit.Converter
import EnumConverter.Emit.Layout

namespace EnumConverter.Emit

open Text

/-- The header and the source file for an enum. -/
structure FilePair where
  headerPath : Path
  header : String
  sourcePath : Path
  source : String
deriving DecidableEq, Repr

/-- Whether a character stands around the target of an include line. -/
def delimitsInclude (c : Char) : Bool :=
  c = '<' || c = '>' || c = '"'

/-- The target of an include line without what stands around it. -/
def bareInclude (target : String) : String :=
  String.ofList
    (((target.toList.dropWhile delimitsInclude).reverse.dropWhile delimitsInclude).reverse)

/-- An include line. A target is put into quotes unless it has delimiters of its own. -/
def includeLine (target : String) : String :=
  match target.toList.head? with
  | some '<' | some '"' => "#include " ++ target ++ "\n"
  | _ => "#include \"" ++ target ++ "\"\n"

/-- Texts in increasing order, each of them once. -/
def sortedTexts (texts : List String) : List String :=
  (texts.mergeSort fun a b => !decide (b < a)).eraseDups

/-- A block of include lines with a blank line before it. -/
def includeBlock (targets : List String) : String :=
  "\n" ++ joined "" ((sortedTexts targets).map includeLine)

/-- The fragments that are not empty, with a blank line between each two and inside the namespace. -/
def namespaceBlock (scope : String) (fragments : List String) : String :=
  let body := joined "\n" (fragments.filter (· ≠ ""))
  if scope = "" then "\n" ++ body
  else "\nnamespace " ++ scope ++ " \x7b\n\n" ++ body ++ "\n\x7d  // namespace " ++ scope ++ "\n"

/-- The first line of every generated file. -/
def banner (target : String) : String :=
  "// Generated by cpp-codegen from " ++ bareInclude target ++ ". Do not edit.\n"

/-- The files for an enum that `target` defines, with converters in the given order. -/
def render (snake : String → String) (layout : Layout) (target : String) (declaration : Declaration)
    (converters : List Converter) : FilePair where
  headerPath := layout.headerPath snake declaration
  header := banner target ++ "#pragma once\n\n" ++ includeLine target ++
    includeBlock (converters.flatMap (·.headerIncludes)) ++
    namespaceBlock declaration.functionNamespace (converters.map (·.header))
  sourcePath := layout.sourcePath snake declaration
  source := banner target ++ includeLine (layout.includeText snake declaration) ++
    includeBlock (converters.flatMap (·.sourceIncludes)) ++
    namespaceBlock declaration.functionNamespace (converters.map (·.source))

end EnumConverter.Emit
