import Orthomosaic.Bounds.Position
import Orthomosaic.Bounds.Union
import Orthomosaic.Bucket.Basic
import Orthomosaic.Mosaic.Error

/-!
# Grids of buckets

`BucketGrid.resolve` covers a rectangle with rows and columns of buckets of one width. The rectangle
is first pulled in a little, so that an edge on a bucket's border does not bring in the neighbour.
From the bucket of its south-western corner the first row is taken eastward until it reaches the
eastern edge, and then rows are added northward until they reach the northern edge.
-/

namespace Orthomosaic

open Scalar

/-- How far a rectangle is pulled in before buckets are looked up: a ten-millionth of a radian. -/
def edgeInset {α : Type} [Scalar α] : α :=
  1e-7 * (180 / 3.14159265358979323846264338327950288)

/-- A block of buckets of one width. Its cells are listed row by row from the south, each row from
the west. -/
structure BucketGrid (α : Type) where
  cells : List Bucket
  columns : Nat
  rows : Nat
  bounds : Bounds α
deriving Repr

namespace BucketGrid

variable {α : Type} [Scalar α]

/-- The buckets to add east of `last` until what is covered reaches the eastern edge of the target,
and what is covered then; `room` is how many more the row may have. -/
def growEast (target : Bounds α) :
    (room : Nat) → (covered : Bounds α) → (last : Bucket) →
      Except (MosaicError α) (List Bucket × Bounds α)
  | 0, covered, _ =>
    if covered.reachesEastOf target then .ok ([], covered)
    else .error (.tooLarge .columns (maxGridExtent + 1))
  | room + 1, covered, last =>
    if covered.reachesEastOf target then .ok ([], covered)
    else
      let next := last.sibling α 1 0
      match growEast target room (covered.absorb next.bounds) next with
      | .ok (cells, covered) => .ok (next :: cells, covered)
      | .error e => .error e

/-- The buckets of a row, from its first one eastward. -/
def rowCells (α : Type) [Scalar α] (columns : Nat) (first : Bucket) : List Bucket :=
  (List.range columns).map fun (column : Nat) => first.sibling α column 0

/-- The rows to add north of the one that starts at `rowStart` until what is covered reaches the
northern edge of the target, their number, and what is covered then; `room` is how many more rows the
grid may have. -/
def growNorth (target : Bounds α) (origin : Bucket) (columns : Nat) :
    (room : Nat) → (covered : Bounds α) → (rowStart : Bucket) →
      Except (MosaicError α) (List Bucket × Nat × Bounds α)
  | 0, covered, _ =>
    if covered.reachesNorthOf target then .ok ([], 0, covered)
    else .error (.tooLarge .rows (maxGridExtent + 1))
  | room + 1, covered, rowStart =>
    if covered.reachesNorthOf target then .ok ([], 0, covered)
    else
      let next := rowStart.sibling α 0 1
      if Bounds.tolerance < magnitude ((next.width : α) - origin.width) then
        .error (.widthChange origin.width next.width next.centerLat)
      else
        let row := rowCells α columns next
        let covered := row.foldl (fun b cell => b.absorb cell.bounds) covered
        match growNorth target origin columns room covered next with
        | .ok (cells, rows, covered) => .ok (row ++ cells, rows + 1, covered)
        | .error e => .error e

/-- The grid that covers a rectangle; an empty one needs none. -/
def resolve (desired : Bounds α) : Except (MosaicError α) (Option (BucketGrid α)) :=
  if desired.isEmpty then .ok none
  else
    let target := desired.shrunk edgeInset
    let origin := Bucket.containing target.west target.south
    match growEast target (maxGridExtent - 1) origin.bounds origin with
    | .error e => .error e
    | .ok (east, covered) =>
      let columns := east.length + 1
      match growNorth target origin columns (maxGridExtent - 1) covered origin with
      | .error e => .error e
      | .ok (north, rows, covered) =>
        .ok (some ⟨origin :: east ++ north, columns, rows + 1, covered⟩)

/-- The bucket in a row counted from the south and a column counted from the west. -/
def cell? (grid : BucketGrid α) (row column : Nat) : Option Bucket :=
  if row < grid.rows ∧ column < grid.columns then grid.cells[row * grid.columns + column]?
  else none

end BucketGrid

end Orthomosaic
