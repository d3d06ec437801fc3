import Orthomosaic.Decimal.Text
import Orthomosaic.Raster.Basic

/-!
# Why a mosaic cannot be made

An area may need buckets of two widths, or too many buckets along one axis, or a canvas that cannot
be made. Missing imagery is none of these: it is an answer.
-/

namespace Orthomosaic

/-- The two directions in which a grid of buckets extends. -/
inductive GridAxis where
  | columns
  | rows
deriving DecidableEq, Repr

/-- The plural of what is counted along an axis. -/
def GridAxis.name : GridAxis → String
  | columns => "columns"
  | rows => "rows"

/-- The most buckets that a grid has along one axis. -/
def maxGridExtent : Nat := 4096

/-- Why an area has no mosaic: the row with its centre at a latitude has buckets of another width than
the first row, too many buckets are needed along an axis, or the canvas cannot be made. -/
inductive MosaicError (α : Type) where
  | widthChange (expected found lat : α)
  | tooLarge (axis : GridAxis) (count : Nat)
  | canvas (error : CanvasError)
deriving DecidableEq, Repr

/-- The wording of the error. -/
def MosaicError.message : MosaicError Float → String
  | widthChange expected found lat =>
    s!"Bucket width changes from {Decimal.message expected}° to {Decimal.message found}° "
      ++ s!"at latitude {Decimal.fixed 4 lat}; area spans non-uniform buckets"
  | tooLarge axis count =>
    s!"Area needs {count} bucket {axis.name}, more than the maximum of {maxGridExtent}"
  | canvas error => s!"Compositing failed: {error.message}"

end Orthomosaic
