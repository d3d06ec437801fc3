import Orthomosaic.Hemisphere
import Orthomosaic.Longitude

/-!
# Rectangles on the globe

A rectangle is held as its western edge, the degrees it spans eastward from there, and its southern
and northern latitude. A rectangle across the antimeridian needs no case of its own: its western
edge plus its span just exceeds 180. The empty rectangle has its latitudes the wrong way round.

`Bounds.ofEdges` and `Bounds.ofCenter` build rectangles in the form that `Bounds.WellFormed` states:
the western edge in `[-180, 180)`, a span of at most a full turn, and the south not above the north.
-/

namespace Orthomosaic

open Scalar

/-- A geographic rectangle, in degrees: `span` is its width, measured eastward from its western edge.
-/
structure Bounds (α : Type) where
  west : α
  span : α
  south : α
  north : α
deriving BEq, Repr

namespace Bounds

variable {α : Type} [Scalar α]

/-- The tolerance of comparisons between edges, in degrees. -/
def tolerance : α := 1e-9

/-- The rectangle with nothing in it. -/
def empty : Bounds α := ⟨180, 0, 90, -90⟩

instance : EmptyCollection (Bounds α) := ⟨empty⟩

/-- Whether a rectangle holds nothing, which its inverted latitudes show. -/
def isEmpty (b : Bounds α) : Bool :=
  decide (b.north < b.south)

/-- The stored form that every operation keeps: the western edge in `[-180, 180)`, at most a full
turn of longitudes, and latitudes in order. -/
structure WellFormed (b : Bounds α) : Prop where
  le_west : -180 ≤ b.west
  west_lt : b.west < 180
  span_nonneg : 0 ≤ b.span
  span_le : b.span ≤ 360
  south_le : b.south ≤ b.north

/-- The rectangle between four edges. The longitudes run eastward from `west`, so an `east` below
`west` makes a rectangle across the antimeridian; the latitudes may come in either order. -/
def ofEdges (west south east north : α) : Bounds α :=
  let span := east - west
  let span := if span < 0 then span + 360 else span
  { west := normalizeLon west
    span := least span 360
    south := least south north
    north := greatest south north }

/-- The rectangle of a given width and height around a point. -/
def ofCenter (lon lat width height : α) : Bounds α :=
  let width := between 0 360 width
  let height := greatest height 0
  { west := normalizeLon (lon - width / 2)
    span := width
    south := lat - height / 2
    north := lat + height / 2 }

/-- The rectangle that holds one point only. -/
def point (lon lat : α) : Bounds α :=
  ⟨normalizeLon lon, 0, lat, lat⟩

/-- The eastern edge without a turn taken off, so never below the western edge. -/
def eastUnwrapped (b : Bounds α) : α :=
  b.west + b.span

/-- The eastern edge in `(-180, 180]`. -/
def east (b : Bounds α) : α :=
  if 180 < b.eastUnwrapped then b.eastUnwrapped - 360 else b.eastUnwrapped

/-- The extent in longitude, 0 if the rectangle is empty. -/
def width (b : Bounds α) : α :=
  if b.isEmpty then 0 else b.span

/-- The extent in latitude, 0 if the rectangle is empty. -/
def height (b : Bounds α) : α :=
  if b.isEmpty then 0 else b.north - b.south

/-- The longitude and latitude of the centre. -/
def center (b : Bounds α) : α × α :=
  (normalizeLon (b.west + b.span / 2), (b.south + b.north) / 2)

/-- The hemisphere, told from the edges up to the tolerance. -/
def hemisphere (b : Bounds α) : Hemisphere :=
  if b.isEmpty then .invalid
  else if 180 + tolerance < b.eastUnwrapped then .straddlingAntimeridian
  else if -tolerance ≤ b.west then .eastern
  else if b.eastUnwrapped ≤ tolerance then .western
  else .straddlingPrimeMeridian

end Bounds

end Orthomosaic
