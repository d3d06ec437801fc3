import Orthomosaic.Decimal.Text
import Orthomosaic.Json.Record
import Orthomosaic.Json.Writer

/-!
# Geodetic positions

A position is a longitude and a latitude in degrees and a height in metres. Any numbers are taken;
`Position.checked` takes only those on the globe and says which of the two is off it.
-/

namespace Orthomosaic

/-- The double nearest to a turn of 180 degrees over its radians. -/
def degreesPerRadian : Float := 57.29577951308232

/-- The double nearest to half the circumference of the unit circle. -/
def pi : Float := 3.14159265358979323846264338327950288

/-- An angle in degrees, given in radians. -/
def degreesOfRadians (x : Float) : Float :=
  x * degreesPerRadian

/-- An angle in radians, given in degrees. -/
def radiansOfDegrees (x : Float) : Float :=
  x * (pi / 180)

/-- A position on or above the ellipsoid, in degrees and metres. -/
structure Position where
  lon : Float
  lat : Float
  elevation : Float

/-- Why two numbers are no position. -/
inductive PositionError where
  | latitude (lat : Float)
  | longitude (lon : Float)

/-- The wording of the error. -/
def PositionError.message : PositionError → String
  | latitude lat => s!"Invalid latitude: {Decimal.message lat} (must be between -90 and 90)"
  | longitude lon => s!"Invalid longitude: {Decimal.message lon} (must be between -180 and 180)"

namespace Position

/-- The position at two angles in radians. -/
def ofRadians (lon lat elevation : Float) : Position :=
  ⟨degreesOfRadians lon, degreesOfRadians lat, elevation⟩

/-- The position on the ellipsoid at two angles in degrees. The latitude is looked at first. -/
def checked (lon lat : Float) : Except PositionError Position :=
  if ¬ (-90 ≤ lat ∧ lat ≤ 90) then .error (.latitude lat)
  else if ¬ (-180 ≤ lon ∧ lon ≤ 180) then .error (.longitude lon)
  else .ok ⟨lon, lat, 0⟩

/-- A position as messages show it. -/
def text (p : Position) : String :=
  let northing := if 0 ≤ p.lat then "N" else "S"
  let easting := if 0 ≤ p.lon then "E" else "W"
  s!"{Decimal.fixed 6 p.lat.abs}°{northing}, {Decimal.fixed 6 p.lon.abs}°{easting}, "
    ++ s!"{Decimal.fixed 1 p.elevation} m"

/-- The names under which a document holds the three numbers. -/
def fieldNames : List String := ["lon_deg", "lat_deg", "elevation_m"]

/-- The document of a position. -/
def toJson (p : Position) : Json :=
  .object (fieldNames.zip ([p.lon, p.lat, p.elevation].map Json.ofFloat))

/-- The position of a document. -/
def ofJson? (document : Json) : Option Position :=
  match document.numbers? fieldNames with
  | some [lon, lat, elevation] => some ⟨lon, lat, elevation⟩
  | _ => none

end Position

end Orthomosaic
