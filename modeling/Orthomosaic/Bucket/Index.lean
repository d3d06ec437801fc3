import Orthomosaic.Bucket.Basic
import Orthomosaic.Word

/-!
# Bucket numbers

A bucket is numbered by its four coordinates side by side: the longitude from bit 14 up, eight bits
of latitude, three of row and three of column. `Bucket.index?` and `Bucket.ofIndex?` work in 32-bit
coordinates, so neither answers when a coordinate leaves that range.
-/

namespace Orthomosaic.Bucket

/-- The number of a bucket. -/
def index (b : Bucket) : Int :=
  (b.lon + 180) * 16384 + (b.lat + 90) * 64 + (b.y : Nat) * 8 + (b.x : Nat)

/-- The number of a bucket whose coordinates, counted from -180 and -90, fit into 32 bits. -/
def index? (b : Bucket) : Option Int :=
  if Word.fits32 (b.lon + 180) && Word.fits32 (b.lat + 90) then some b.index else none

/-- The bucket of a number. Only 32 bits of longitude are read, and there is no bucket if counting
them from -180 leaves the 32 bits. -/
def ofIndex? (i : Int) : Option Bucket := do
  let lon ← Word.checked32? (Word.low32 (i / 16384) - 180)
  some
    { lon := lon
      lat := i / 64 % 256 - 90
      x := overEights (i % 8).toNat
      y := overEights (i / 8 % 8).toNat }

end Orthomosaic.Bucket
