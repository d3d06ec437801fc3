import Orthomosaic.Bounds.Basic

/-!
# Points and rectangles

Where a point lies relative to a rectangle: whether it is inside, which texture coordinate it has,
which point inside is nearest to it. All of this rests on `Bounds.lonPosition`, the signed way east
from the western edge, in which a point outside is measured to the edge that is nearer.
-/

namespace Orthomosaic.Bounds

open Scalar

variable {α : Type} [Scalar α]

/-- The way east from the western edge to a longitude. A longitude outside is measured from the
nearer edge, so just west of the rectangle it is a small negative number. -/
def lonPosition (b : Bounds α) (lon : α) : α :=
  let d := eastward b.west lon
  if b.span < d ∧ 360 - d < d - b.span then d - 360 else d

/-- The longitude of the western edge seen from that of another rectangle, 0 if one is empty. -/
def lonOffsetFrom (b other : Bounds α) : α :=
  if b.isEmpty || other.isEmpty then 0 else other.lonPosition b.west

/-- The latitude of the southern edge seen from that of another rectangle, 0 if one is empty. -/
def latOffsetFrom (b other : Bounds α) : α :=
  if b.isEmpty || other.isEmpty then 0 else b.south - other.south

/-- The texture coordinate across: 0 at the western edge and 1 at the eastern one. On a full ring
these two are one meridian, which has coordinate 1 only in the spelling `west + span`. -/
def texU (b : Bounds α) (lon : α) : α :=
  if b.span ≤ tolerance then 0
  else
    let d := b.lonPosition lon
    if d ≤ tolerance ∧ 360 - tolerance ≤ b.span
        ∧ magnitude (lon - b.eastUnwrapped) ≤ tolerance then 1
    else d / b.span

/-- The texture coordinate down: 0 at the northern edge and 1 at the southern one. -/
def texV (b : Bounds α) (lat : α) : α :=
  let height := b.north - b.south
  if height ≤ tolerance then 0 else (b.north - lat) / height

/-- The texture coordinates of a point. -/
def texCoord (b : Bounds α) (lon lat : α) : α × α :=
  if b.isEmpty then (0, 0) else (b.texU lon, b.texV lat)

/-- Whether a point is inside or on an edge, up to the tolerance. -/
def contains (b : Bounds α) (lon lat : α) : Bool :=
  if b.isEmpty then false
  else if lat < b.south - tolerance ∨ b.north + tolerance < lat then false
  else
    let d := b.lonPosition lon
    decide (-tolerance ≤ d ∧ d ≤ b.span + tolerance)

/-- Whether a rectangle reaches as far east as another, both measured from its western edge. -/
def reachesEastOf (b other : Bounds α) : Bool :=
  if b.isEmpty || other.isEmpty then false
  else decide (b.lonPosition other.west + other.span ≤ b.span + tolerance)

/-- Whether a rectangle reaches as far north as another. -/
def reachesNorthOf (b other : Bounds α) : Bool :=
  !b.isEmpty && decide (other.north ≤ b.north + tolerance)

/-- Whether another rectangle lies inside this one. -/
def covers (b other : Bounds α) : Bool :=
  if b.isEmpty || other.isEmpty then false
  else decide (-tolerance ≤ b.lonPosition other.west) && b.reachesEastOf other
    && decide (b.south ≤ other.south + tolerance) && b.reachesNorthOf other

/-- The rectangle with every edge moved inward. An extent below twice the margin collapses onto its
centre line. -/
def shrunk (b : Bounds α) (margin : α) : Bounds α :=
  if b.isEmpty then b
  else
    let lonMargin := least margin (b.span / 2)
    let latMargin := least margin ((b.north - b.south) / 2)
    { west := normalizeLon (b.west + lonMargin)
      span := b.span - 2 * lonMargin
      south := b.south + latMargin
      north := b.north - latMargin }

/-- The longitude nearest to `lon` inside the rectangle. -/
def clampLon (b : Bounds α) (lon : α) : α :=
  let d := b.lonPosition lon
  if d < 0 then b.west
  else if b.span < d then normalizeLon b.eastUnwrapped
  else normalizeLon lon

/-- The point inside the rectangle nearest to a given one; an empty rectangle leaves it alone.
There is no answer when the latitudes of the rectangle have no order. -/
def clamp? (b : Bounds α) (lon lat : α) : Option (α × α) :=
  if b.isEmpty then some (lon, lat)
  else if b.south ≤ b.north then some (b.clampLon lon, between b.south b.north lat)
  else none

end Orthomosaic.Bounds
