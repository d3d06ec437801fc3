/-!
# The exact value of a double

Every double is a signed infinity, no number at all, or exactly `± m · 2 ^ e` with whole `m` and
`e`. `Binary64.value` takes a double apart into these cases and `Binary64.ofParts` puts a number
together again, so that rounding and printing can be done in whole numbers.
-/

namespace Orthomosaic.Binary64

open Float.Model

/-- What a double stands for. -/
inductive Value where
  | notANumber
  | infinite (negative : Bool)
  | finite (negative : Bool) (m : Nat) (e : Int)
deriving DecidableEq, Repr

/-- Whether a sign is the minus sign. -/
def isMinus : UnpackedFloat.Sign → Bool
  | .positive => false
  | .negative => true

/-- The sign of a number. -/
def signOf (negative : Bool) : UnpackedFloat.Sign :=
  if negative then .negative else .positive

/-- The value of a double. -/
def value (x : Float) : Value :=
  match x.toModel.unpack with
  | .notANumber => .notANumber
  | .infinity sign => .infinite (isMinus sign)
  | .zero sign => .finite (isMinus sign) 0 0
  | .finite sign m e _ => .finite (isMinus sign) m e

/-- The double nearest to `m · 2 ^ e`, with the given sign also if it is zero. -/
def ofParts (negative : Bool) (m : Nat) (e : Int) : Float :=
  .ofModel (.pack (UnpackedFloat.round .binary64 (signOf negative) m e))

/-- The numerator of `m · 2 ^ e` over the denominator `Binary64.denominator e`. -/
def numerator (m : Nat) (e : Int) : Nat :=
  m * Nat.pow 2 e.toNat

/-- The power of two that `m · 2 ^ e` is a whole number of parts of. -/
def denominator (e : Int) : Nat :=
  Nat.pow 2 (-e).toNat

end Orthomosaic.Binary64
