/-!
# Numbers that measure degrees

`Scalar α` is the arithmetic that the geometry of rectangles, buckets and mosaics runs on: the four
operations, the two comparisons, decimal constants, and three readings of a number as an integer.
Nothing in the geometry depends on which numbers these are. `Orthomosaic.Scalar.Binary64` supplies
the doubles that a running program measures with and `Orthomosaic.Scalar.Rational` the exact
rationals, on which nothing is rounded.

A type may hold values that are no number, such as the `NaN` of the doubles. Such a value compares
with nothing, itself included, and the operations below say what they make of it.
-/

namespace Orthomosaic

/-- Numbers that can measure degrees. -/
class Scalar (α : Type) extends Add α, Sub α, Mul α, Div α, Neg α, LT α, LE α,
    OfScientific α, IntCast α where
  ltDecidable : DecidableLT α
  leDecidable : DecidableLE α
  turnPart : α → α
  truncate : α → Int
  nearest : (least greatest : Int) → α → Int
  isFinite : α → Bool

namespace Scalar

variable {α : Type} [Scalar α]

instance : DecidableLT α := ltDecidable

instance : DecidableLE α := leDecidable

/-- A natural number as a scalar. -/
def ofNat (n : Nat) : α :=
  ((n : Int) : α)

instance (priority := low) (n : Nat) : OfNat α n := ⟨ofNat n⟩

/-- Whether a value is a number at all: a number is at most itself. -/
def isNumber (x : α) : Bool :=
  decide (x ≤ x)

/-- The smaller of two numbers, the first of two equal ones. If one of the two is no number, the
other is taken. -/
def least (x y : α) : α :=
  if isNumber x then if y < x then y else x else y

/-- The greater of two numbers, the first of two equal ones. If one of the two is no number, the
other is taken. -/
def greatest (x y : α) : α :=
  if isNumber x then if x < y then y else x else y

/-- How far a number is from zero. -/
def magnitude (x : α) : α :=
  if x < 0 then -x else x

/-- The number moved up to `low` or down to `high`. What is no number stays as it is. -/
def between (low high x : α) : α :=
  let raised := if x < low then low else x
  if high < raised then high else raised

end Scalar

end Orthomosaic
