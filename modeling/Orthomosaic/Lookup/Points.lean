import Orthomosaic.Geodesy.Ellipsoid
import Orthomosaic.Lookup.Area
import Orthomosaic.Mosaic.Collage

/-!
# Orthophotos of point sets

The orthophoto of some points is a collage of the tiles of the buckets that hold them. The rectangle
around the points is pulled in a little first and each point moved into it, so that a point on a
bucket's border is looked up on the side where the others are. Each bucket counts once, in the order
in which the points lead to it.
-/

namespace Orthomosaic

/-- Why some points have no orthophoto. -/
inductive PointsError where
  | canvas (error : CanvasError)
  | unorderedLatitudes
deriving DecidableEq, Repr

section

variable {α : Type} [Scalar α]

/-- The buckets that hold some points, each once. There are none if the points cannot be moved into
the rectangle around them. -/
def pointBuckets? (points : List (α × α)) : Option (List Bucket) := do
  let target := (Bounds.ofPoints points).shrunk edgeInset
  let moved ← points.mapM fun p => target.clamp? p.1 p.2
  some ((moved.map fun p => Bucket.containing p.1 p.2).eraseDupsBy fun a b => a.index == b.index)

namespace TileCache

/-- The orthophoto of some points, given as longitudes and latitudes. -/
def pointsPhoto (look : Path → Candidate) (cache : TileCache) (points : List (α × α)) :
    Except PointsError (Option (Orthophoto α)) × TileCache :=
  if (Bounds.ofPoints points).isEmpty then (.ok none, cache)
  else
    match pointBuckets? points with
    | none => (.error .unorderedLatitudes, cache)
    | some buckets =>
      let (photos, cache) := bucketPhotos look cache buckets
      ((Orthophoto.compose photos).mapError .canvas, cache)

/-- The orthophoto of some points, where a canvas that cannot be made counts as no orthophoto. -/
def pointsPhotoOrNone (look : Path → Candidate) (cache : TileCache) (points : List (α × α)) :
    Except PointsError (Option (Orthophoto α)) × TileCache :=
  match pointsPhoto look cache points with
  | (.error (.canvas _), cache) => (.ok none, cache)
  | result => result

end TileCache

end

/-- The longitude and latitude of points given as offsets from a centre. -/
def surveyed (center : Cartesian) (offsets : List Cartesian) : List (Float × Float) :=
  offsets.map fun offset =>
    let p := (center + offset).toPosition
    (p.lon, p.lat)

end Orthomosaic
