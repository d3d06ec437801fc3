import Orthomosaic.Bounds.Basic
import Orthomosaic.Decimal.Text
import Orthomosaic.Json.Record
import Orthomosaic.Json.Writer
import Orthomosaic.Scalar.Binary64

/-!
# Rectangles as text and as JSON

A message shows the edges of a rectangle with six decimals and its hemisphere in words. A JSON
document holds the four stored numbers, so that reading it gives the same rectangle again.
-/

namespace Orthomosaic

namespace Bounds

/-- A rectangle as messages show it. -/
def text (b : Bounds Float) : String :=
  if b.isEmpty then "[empty]"
  else
    let degrees := Decimal.fixed 6
    s!"lon {degrees b.west}..{degrees b.east}, lat {degrees b.south}..{degrees b.north} "
      ++ s!"({b.hemisphere.text})"

/-- The names under which a document holds the four numbers. -/
def fieldNames : List String := ["west", "span", "south", "north"]

/-- The document of a rectangle. -/
def toJson (b : Bounds Float) : Json :=
  .object (fieldNames.zip ([b.west, b.span, b.south, b.north].map Json.ofFloat))

/-- The rectangle of a document, taken as it stands. -/
def ofJson? (document : Json) : Option (Bounds Float) :=
  match document.numbers? fieldNames with
  | some [west, span, south, north] => some ⟨west, span, south, north⟩
  | _ => none

end Bounds

namespace Hemisphere

/-- The document of a hemisphere: its name. -/
def toJson (h : Hemisphere) : Json :=
  .ofText h.name

/-- The hemisphere of a document: its name, alone or as the one key of an object that holds null. -/
def ofJson? : Json → Option Hemisphere
  | .string spelling => (Json.string spelling).text?.bind ofName?
  | .object [(key, .null)] => (Json.string key).text?.bind ofName?
  | _ => none

end Hemisphere

end Orthomosaic
