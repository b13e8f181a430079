import EnumConverter.Conversion
import EnumConverter.Source.Comment

namespace EnumConverter.Annotation

open Text Source

/-- The marker unless another one is chosen. -/
def defaultMarker : String := "@cpp_codegen"

/-- Punctuation that may end a word or a line. -/
def isEndPunctuation (c : Char) : Bool :=
  c = '.' || c = ',' || c = ';' || c = ':'

/-- Drops the last character of a text if it is punctuation. -/
def dropEndPunctuation (cs : List Char) : List Char :=
  if cs.getLast?.any isEndPunctuation then cs.dropLast else cs

/-- A text without the blanks around it and without one punctuation character at its end. -/
def normalize (text : String) : String :=
  String.ofList (trimEnd (dropEndPunctuation (trim text.toList)))

/-- The first word of a text in normal form. -/
def leadingWord? (text : String) : Option String :=
  (firstWord? text.toList).map fun word => normalize (String.ofList word)

/-- What stands below the marker of an annotation. -/
structure Directives where
  /-- The line of the marker. -/
  markerLine : Nat
  /-- The requested conversions. -/
  conversions : ConversionSet := {}
  /-- The lines that request nothing known, in normal form. -/
  unrecognized : List ContentLine := []
deriving DecidableEq, Repr

namespace Directives

/-- The directives with one more line, which is not a marker line. Blank lines say nothing. -/
def add (directives : Directives) (content : ContentLine) : Directives :=
  match leadingWord? content.text with
  | none => directives
  | some word =>
    match Conversion.ofKeyword? word with
    | some kind => { directives with conversions := directives.conversions.insert kind }
    | none => { directives with
        unrecognized := directives.unrecognized ++ [⟨content.line, normalize content.text⟩] }

end Directives

/-- The word that makes a documentation comment an annotation, in normal form. -/
structure Marker where
  word : String
deriving DecidableEq, Repr

namespace Marker

/-- The marker that a text stands for. -/
def ofText (text : String) : Marker := ⟨normalize text⟩

/-- Whether a line starts with the marker. -/
def opens (marker : Marker) (content : ContentLine) : Bool :=
  leadingWord? content.text = some marker.word

/-- Reads the lines of a documentation block. The first marker line makes it an annotation, and
further marker lines below it are ignored. -/
def directives? (marker : Marker) : List ContentLine → Option Directives
  | [] => none
  | content :: rest =>
    if marker.opens content then
      some ((rest.filter (!marker.opens ·)).foldl .add { markerLine := content.line })
    else marker.directives? rest

end Marker

end EnumConverter.Annotation
