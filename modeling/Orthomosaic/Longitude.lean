import Orthomosaic.Scalar.Basic

/-!
# Longitudes

A longitude names a meridian, and every turn of 360 degrees names the same one again.
`normalizeLon` picks the name in `[-180, 180)`; `eastward` is the way from one meridian to another
going east.
-/

namespace Orthomosaic

open Scalar

variable {α : Type} [Scalar α]

/-- The name of a meridian in `[-180, 180)`. -/
def normalizeLon (lon : α) : α :=
  let wrapped := turnPart (lon + 180) - 180
  if 180 ≤ wrapped then wrapped - 360 else wrapped

/-- The degrees travelled eastward to get from one longitude to another, in `[0, 360)`. -/
def eastward (start finish : α) : α :=
  let d := turnPart (finish - start)
  if 360 ≤ d then 0 else d

end Orthomosaic
