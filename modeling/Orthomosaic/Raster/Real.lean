/-!
# Arithmetic of binary32 samples

The samples of a real format are binary32 numbers, kept as their bit patterns. Sums, products and
quotients round to nearest. A pattern that is no number passes through every operation; an
operation that makes one of numbers makes the quiet pattern with its sign set.
-/

namespace Orthomosaic.Real32

/-- Whether a pattern is no number. -/
def isNaN (w : UInt32) : Bool :=
  decide (0x7F800000 < w &&& 0x7FFFFFFF)

/-- The pattern made by an operation that has no result. -/
def noResult : UInt32 := 0xFFC00000

/-- A pattern that is no number, in the form in which operations pass it on. -/
def quiet (w : UInt32) : UInt32 :=
  w ||| 0x00400000

/-- An operation on patterns, given the operation on numbers. -/
def lift (op : Float32 → Float32 → Float32) (a b : UInt32) : UInt32 :=
  if isNaN a then quiet a
  else if isNaN b then quiet b
  else
    let r := op (.ofBits a) (.ofBits b)
    if r.isNaN then noResult else r.toBits

/-- The sum. -/
def add : UInt32 → UInt32 → UInt32 := lift (· + ·)

/-- The product. -/
def mul : UInt32 → UInt32 → UInt32 := lift (· * ·)

/-- The quotient. -/
def div : UInt32 → UInt32 → UInt32 := lift (· / ·)

/-- The pattern of an integer below `2 ^ 24`. -/
def ofInteger (n : UInt32) : UInt32 :=
  n.toFloat32.toBits

/-- The pattern of 1. -/
def one : UInt32 := 0x3F800000

/-- The integer nearest to a number that is not negative, a half going up, and at most `greatest`.
Negative numbers and patterns that are no number give 0. -/
def roundTo (greatest : UInt32) (w : UInt32) : UInt32 :=
  let x := Float32.ofBits w
  let whole := x.toUInt32
  let nearest := if 0.5 ≤ x - whole.toFloat32 then whole + 1 else whole
  if greatest.toFloat32 ≤ x then greatest else min greatest nearest

/-- The integer part of a number, 0 if it is negative. -/
def floorNat (x : Float32) : Nat :=
  x.toUInt32.toNat

/-- The least integer not below a number, 0 if it is negative. -/
def ceilNat (x : Float32) : Nat :=
  let whole := x.toUInt32
  whole.toNat + if whole.toFloat32 < x then 1 else 0

end Orthomosaic.Real32
