import Orthomosaic.Scalar.Basic

/-!
# Rationals as degrees

The instance of `Scalar` on which the geometry is exact: every operation gives its true result.
-/

namespace Orthomosaic.Rational

/-- The integer part, cut off toward zero. -/
def integerPart (x : Rat) : Int :=
  if 0 ≤ x then x.floor else x.ceil

/-- The nearest integer, halves going away from zero. -/
def nearestInt (x : Rat) : Int :=
  if 0 ≤ x then (x + 1 / 2).floor else (x - 1 / 2).ceil

instance : Scalar Rat where
  ltDecidable := inferInstance
  leDecidable := inferInstance
  turnPart x := x - 360 * ((x / 360).floor : Rat)
  truncate x := max (-2147483648) (min 2147483647 (integerPart x))
  nearest lo hi x := max lo (min hi (nearestInt x))
  isFinite _ := true

end Orthomosaic.Rational
