/-!
# Machine words

The ranges of signed and unsigned words of 32 and 64 bits, for numbers that must fit into one.
-/

namespace Orthomosaic.Word

/-- Whether an integer fits into a signed word of 32 bits. -/
def fits32 (n : Int) : Bool :=
  decide (-2147483648 ≤ n ∧ n ≤ 2147483647)

/-- The integer, if it fits into a signed word of 32 bits. -/
def checked32? (n : Int) : Option Int :=
  if fits32 n then some n else none

/-- The signed word made of the low 32 bits of an integer. -/
def low32 (n : Int) : Int :=
  n.bmod 4294967296

/-- The least signed word of 64 bits. -/
def least64 : Int := -9223372036854775808

/-- The greatest signed word of 64 bits. -/
def greatest64 : Int := 9223372036854775807

/-- The greatest unsigned word of 32 bits. -/
def unsigned32 : Nat := 4294967295

/-- The greatest unsigned word of 64 bits. -/
def unsigned64 : Nat := 18446744073709551615

/-- An integer that a signed word of 64 bits holds. -/
def Fits64 (n : Int) : Prop :=
  least64 ≤ n ∧ n ≤ greatest64

/-- The signed word of 64 bits nearest to an integer. -/
def saturate64 (n : Int) : Int :=
  max least64 (min greatest64 n)

/-- The integer as an unsigned word of 32 bits, if it is one. -/
def unsigned32? (n : Int) : Option Nat :=
  if 0 ≤ n ∧ n ≤ unsigned32 then some n.toNat else none

end Orthomosaic.Word
