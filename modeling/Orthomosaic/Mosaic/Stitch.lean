import Orthomosaic.Mosaic.Grid
import Orthomosaic.Raster.Blit
import Orthomosaic.Raster.Scale

/-!
# Stitching the tiles of a grid

Each bucket of a grid has a block of the canvas, the southernmost row at the bottom. The first tile
there is sets the size of a block and the format of the canvas; the other tiles are scaled to it, and
the block of a bucket without a tile stays zero.
-/

namespace Orthomosaic.BucketGrid

variable {α : Type}

/-- The side of a canvas of `count` blocks, held within 32 bits. -/
def canvasSide (count block : Nat) : Nat :=
  min (count * block) Word.unsigned32

/-- The canvas with the tile of cell `i` painted into its block. -/
def paintCell (grid : BucketGrid α) (width height : Nat) (canvas : Raster) (i : Nat)
    (tile : Raster) : Raster :=
  let row := i / grid.columns
  let column := i % grid.columns
  canvas.blit (tile.scale width height)
    ((column * width : Nat) : Int) (((grid.rows - 1 - row) * height : Nat) : Int)

/-- The canvas with every tile painted into the block of its cell. -/
def paintCells (grid : BucketGrid α) (width height : Nat) (canvas : Raster)
    (tiles : List (Option Raster)) : Raster :=
  (tiles.take grid.cells.length).zipIdx.foldl
    (fun canvas (tile, i) =>
      match tile with
      | some tile => paintCell grid width height canvas i tile
      | none => canvas)
    canvas

/-- The canvas of the tiles of the cells, in their order; there is none if no cell has a tile. -/
def stitch (grid : BucketGrid α) (tiles : List (Option Raster)) :
    Except CanvasError (Option Raster) :=
  match tiles.filterMap id with
  | [] => .ok none
  | first :: _ =>
    match Raster.blank (canvasSide grid.columns first.width) (canvasSide grid.rows first.height)
        first.format with
    | .error e => .error e
    | .ok canvas => .ok (some (grid.paintCells first.width first.height canvas tiles))

end Orthomosaic.BucketGrid
