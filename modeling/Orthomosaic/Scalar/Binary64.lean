import Orthomosaic.Binary64
import Orthomosaic.Scalar.Basic

/-!
# Doubles as degrees

The instance of `Scalar` that a running program uses. Sums, products and comparisons are those of
IEEE 754. Taking off whole turns and rounding to an integer, to the nearest or toward zero, are done
on the exact value of a double, so none of them rounds on the way.
-/

namespace Orthomosaic.Binary64

/-- The signed remainder of a division by 360, which every double has exactly. It keeps the sign of
the dividend, that of a zero included. -/
def turnRemainder (x : Float) : Float :=
  if x.abs < 360 then x
  else match value x with
    | .finite negative m e =>
      ofParts negative (numerator m e % (360 * denominator e)) (min e 0)
    | .infinite _ | .notANumber => 0 / 0

/-- The part of an angle that whole turns leave over. -/
def turnPart (x : Float) : Float :=
  let r := turnRemainder x
  if r < 0 then r + 360 else r

/-- The integer part, cut off toward zero and held within 32 bits. What is no number gives 0. -/
def truncate (x : Float) : Int :=
  match value x with
  | .notANumber => 0
  | .infinite negative => if negative then -2147483648 else 2147483647
  | .finite negative m e =>
    let n : Int := (numerator m e / denominator e : Nat)
    max (-2147483648) (min 2147483647 (if negative then -n else n))

/-- The integer nearest to `m · 2 ^ e`, a half going up. -/
def nearestNat (m : Nat) (e : Int) : Nat :=
  (2 * numerator m e + denominator e) / (2 * denominator e)

/-- The nearest integer, halves going away from zero, held between the two bounds. -/
def nearest (lo hi : Int) (x : Float) : Int :=
  match value x with
  | .notANumber => max lo (min hi 0)
  | .infinite negative => if negative then lo else hi
  | .finite negative m e =>
    let n : Int := nearestNat m e
    max lo (min hi (if negative then -n else n))

instance : Scalar Float where
  intCast := Float.ofInt
  ltDecidable := inferInstance
  leDecidable := inferInstance
  turnPart := turnPart
  truncate := truncate
  nearest := nearest
  isFinite := Float.isFinite

end Orthomosaic.Binary64
