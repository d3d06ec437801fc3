/-!
# Decimal digits of a ratio

Whole-number arithmetic on the ratio `num / den`: the place of its first digit, its nearest multiple
of a power of ten, and the digits of a natural number.
-/

namespace Orthomosaic.Decimal

/-- The decimal digits of a natural number. -/
def digits (n : Nat) : List Char :=
  Nat.toDigits 10 n

/-- How many decimal digits a natural number has. -/
def digitCount (n : Nat) : Nat :=
  (digits n).length

/-- The ratio `num / den` times `10 ^ k`, as a new numerator and denominator. -/
def shift (num den : Nat) (k : Int) : Nat × Nat :=
  (num * Nat.pow 10 k.toNat, den * Nat.pow 10 (-k).toNat)

/-- The exponent `e` with `10 ^ e ≤ num / den < 10 ^ (e + 1)`, for a positive ratio. -/
def firstPlace (num den : Nat) : Int :=
  let guess : Int := (digitCount num : Int) - digitCount den
  let (scaledNum, scaledDen) := shift num den (-guess)
  if scaledDen ≤ scaledNum then guess else guess - 1

/-- The natural number nearest to `num / den`, of two equally near ones the even one. -/
def roundEven (num den : Nat) : Nat :=
  let q := num / den
  let twice := 2 * (num % den)
  if twice < den then q
  else if den < twice then q + 1
  else if q % 2 = 0 then q else q + 1

/-- The digits of a number of which the last `places` stand behind the point. -/
def pointed (places : Nat) (n : Nat) : List Char :=
  if places = 0 then digits n
  else
    let whole := digits (n / Nat.pow 10 places)
    let part := digits (n % Nat.pow 10 places)
    whole ++ '.' :: (List.replicate (places - part.length) '0' ++ part)

/-- A natural number with zeros in front up to a width. -/
def padded (width : Nat) (n : Nat) : List Char :=
  let ds := digits n
  List.replicate (width - ds.length) '0' ++ ds

end Orthomosaic.Decimal
