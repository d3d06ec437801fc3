/-!
# Hemispheres

The part of the globe that a rectangle occupies in longitude, with the three spellings it is
written in: in prose, as a tag of a report, and as the name that is read back.
-/

namespace Orthomosaic

/-- Which side of the two meridians 0 and 180 a rectangle lies on. -/
inductive Hemisphere where
  | eastern
  | western
  | straddlingPrimeMeridian
  | straddlingAntimeridian
  | invalid
deriving DecidableEq, Repr

namespace Hemisphere

/-- Every hemisphere. -/
def all : List Hemisphere :=
  [eastern, western, straddlingPrimeMeridian, straddlingAntimeridian, invalid]

/-- Whether the rectangle crosses one of the two meridians. -/
def isStraddling : Hemisphere → Bool
  | straddlingPrimeMeridian | straddlingAntimeridian => true
  | eastern | western | invalid => false

/-- The wording used in messages. -/
def text : Hemisphere → String
  | eastern => "eastern"
  | western => "western"
  | straddlingPrimeMeridian => "straddling prime meridian"
  | straddlingAntimeridian => "straddling antimeridian"
  | invalid => "invalid"

/-- The name used in JSON documents. -/
def name : Hemisphere → String
  | eastern => "Eastern"
  | western => "Western"
  | straddlingPrimeMeridian => "StraddlingPrimeMeridian"
  | straddlingAntimeridian => "StraddlingAntimeridian"
  | invalid => "Invalid"

/-- The hemisphere of a name. -/
def ofName? (s : String) : Option Hemisphere :=
  all.find? (·.name == s)

theorem mem_all (h : Hemisphere) : h ∈ all := by
  cases h <;> decide

end Hemisphere

end Orthomosaic
