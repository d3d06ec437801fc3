import Orthomosaic.Bounds.Union
import Orthomosaic.Mosaic.Error
import Orthomosaic.Orthophoto
import Orthomosaic.Raster.Blit
import Orthomosaic.Raster.Scale

/-!
# Collages of orthophotos

`Orthophoto.compose` paints orthophotos of any extents onto one canvas that shows their union. The
first one sets how many pixels a degree has, along and across, and the format; every photo is scaled
to its extent at that density and placed by the offset of its corner.
-/

namespace Orthomosaic

open Scalar

variable {α : Type} [Scalar α]

/-- The pixels of an extent, rounded and held within 32 bits; what is not finite and positive has
none. -/
def pixelExtent (extent : α) : Nat :=
  if isFinite extent ∧ 0 < extent then (nearest 0 Word.unsigned32 extent).toNat else 0

/-- The pixels of a signed offset, rounded and held within 64 bits. -/
def pixelOffset (offset : α) : Int :=
  nearest Word.least64 Word.greatest64 offset

/-- How many pixels a degree has, along longitudes and along latitudes. -/
structure PixelDensity (α : Type) where
  perLon : α
  perLat : α

namespace Orthophoto

/-- The density of a photo. -/
def density (p : Orthophoto α) : PixelDensity α :=
  { perLon := ofNat p.width / p.bounds.width
    perLat := ofNat p.height / p.bounds.height }

/-- The size in pixels of a photo at a density, at least 1 each way. -/
def footprint (p : Orthophoto α) (d : PixelDensity α) : Nat × Nat :=
  (max (pixelExtent (p.bounds.width * d.perLon)) 1,
    max (pixelExtent (p.bounds.height * d.perLat)) 1)

/-- The column and row at which a photo is painted on a canvas that is `canvasHeight` high and shows
`union`. -/
def placement (p : Orthophoto α) (d : PixelDensity α) (union : Bounds α) (canvasHeight : Nat) :
    Int × Int :=
  let fromBottom := pixelOffset (p.bounds.latOffsetFrom union * d.perLat)
  (pixelOffset (p.bounds.lonOffsetFrom union * d.perLon),
    (canvasHeight : Int) - fromBottom - ((p.footprint d).2 : Int))

/-- The canvas with a photo painted onto it. -/
def paint (d : PixelDensity α) (union : Bounds α) (canvas : Raster) (p : Orthophoto α) : Raster :=
  let (width, height) := p.footprint d
  let (x, y) := p.placement d union canvas.height
  canvas.blit (p.image.raster.scale width height) x y

/-- The photo made of a list of photos, which are painted in their order. -/
def compose (photos : List (Orthophoto α)) : Except CanvasError (Option (Orthophoto α)) :=
  match photos with
  | [] => .ok none
  | [photo] => .ok (some photo)
  | first :: _ =>
    let d := first.density
    let union := Bounds.union (photos.map (·.bounds))
    match Raster.blank (pixelExtent (union.width * d.perLon))
        (pixelExtent (union.height * d.perLat)) first.image.raster.format with
    | .error e => .error e
    | .ok canvas => .ok (some ⟨⟨photos.foldl (paint d union) canvas, none⟩, union⟩)

end Orthophoto

end Orthomosaic
