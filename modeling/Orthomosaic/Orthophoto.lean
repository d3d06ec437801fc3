import Orthomosaic.Bounds.Position
import Orthomosaic.Raster.Basic

/-!
# Orthophotos

An orthophoto is an image and the rectangle of ground that it shows. An image remembers which load
of a tile it comes from, if it is a tile as loaded and not a composition, so that one can tell
whether two orthophotos share their image.
-/

namespace Orthomosaic

/-- An image, with the number of the load that decoded it if it is a tile. -/
structure Image where
  raster : Raster
  load : Option Nat

/-- Whether two images are one tile of one load. -/
def Image.sharedWith (a b : Image) : Bool :=
  match a.load, b.load with
  | some m, some n => m == n
  | _, _ => false

/-- An image and the ground it shows. -/
structure Orthophoto (α : Type) where
  image : Image
  bounds : Bounds α

namespace Orthophoto

variable {α : Type} [Scalar α]

/-- The width of the image in pixels. -/
def width (p : Orthophoto α) : Nat :=
  p.image.raster.width

/-- The height of the image in pixels. -/
def height (p : Orthophoto α) : Nat :=
  p.image.raster.height

/-- The texture coordinates of a point: 0, 0 at the north-western corner and 1, 1 at the
south-eastern one. -/
def texCoord (p : Orthophoto α) (lon lat : α) : α × α :=
  p.bounds.texCoord lon lat

end Orthophoto

end Orthomosaic
