import Orthomosaic.Mosaic.Grid
import Orthomosaic.Mosaic.Stitch
import Orthomosaic.Tile.Cache

/-!
# Orthophotos of buckets and rectangles

The orthophoto of a bucket is its tile, unscaled. The orthophoto of a rectangle is the mosaic of the
grid of buckets that covers it; a rectangle inside one bucket has the orthophoto of that bucket.

Every lookup gives the answer and the cache after it. The cache keeps what it has learnt also when
the answer is an error.
-/

namespace Orthomosaic.TileCache

variable {α : Type} [Scalar α]

/-- The orthophoto of a bucket, if it has a tile. -/
def bucketPhoto (look : Path → Candidate) (cache : TileCache) (b : Bucket) :
    Option (Orthophoto α) × TileCache :=
  let (image, cache) := getImage look cache b
  (image.map (Orthophoto.mk · b.bounds), cache)

/-- The orthophotos of those buckets in a list that have a tile. -/
def bucketPhotos (look : Path → Candidate) (cache : TileCache) (buckets : List Bucket) :
    List (Orthophoto α) × TileCache :=
  let (images, cache) := getImages look cache buckets
  let photos := (buckets.zip images).filterMap fun (b, image) =>
    image.map (Orthophoto.mk · b.bounds)
  (photos, cache)

/-- The orthophoto of a rectangle, if any bucket it needs has a tile. It shows the buckets whole, so
it may show more than was asked for. -/
def areaPhoto (look : Path → Candidate) (cache : TileCache) (desired : Bounds α) :
    Except (MosaicError α) (Option (Orthophoto α)) × TileCache :=
  match BucketGrid.resolve desired with
  | .error e => (.error e, cache)
  | .ok none => (.ok none, cache)
  | .ok (some grid) =>
    match grid.cells with
    | [b] =>
      let (photo, cache) := bucketPhoto look cache b
      (.ok photo, cache)
    | cells =>
      let (images, cache) := getImages look cache cells
      match grid.stitch (images.map (·.map (·.raster))) with
      | .error e => (.error (.canvas e), cache)
      | .ok canvas => (.ok (canvas.map fun raster => ⟨⟨raster, none⟩, grid.bounds⟩), cache)

/-- The orthophoto of a rectangle, where every error counts as no orthophoto. -/
def areaPhotoOrNone (look : Path → Candidate) (cache : TileCache) (desired : Bounds α) :
    Option (Orthophoto α) × TileCache :=
  let (photo, cache) := areaPhoto look cache desired
  (photo.toOption.join, cache)

end Orthomosaic.TileCache

/-- The wording of an error in the lookup of a rectangle. -/
def Orthomosaic.MosaicError.report (e : MosaicError Float) : String :=
  s!"Orthophoto lookup failed: {e.message}"
