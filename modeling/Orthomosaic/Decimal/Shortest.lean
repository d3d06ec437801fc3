import Orthomosaic.Binary64
import Orthomosaic.Decimal.Digits

/-!
# The shortest decimal that reads back

Several decimals read back as a given double: those in the interval of reals that round to it.
`Decimal.shortest` gives the one with the fewest digits and, among these, the nearest; of two equally
near ones a `Decimal.TieRule` takes one. For each count of digits only the two neighbours of the value
on that grid of decimals can be nearest.
-/

namespace Orthomosaic.Decimal

/-- The decimal `coefficient · 10 ^ exponent`. -/
structure Scaled where
  coefficient : Nat
  exponent : Int
deriving DecidableEq, Repr

namespace Scaled

/-- The same decimal without zeros at its end; `fuel` bounds their count. -/
def trimmed : (fuel : Nat) → Scaled → Scaled
  | 0, d => d
  | fuel + 1, d =>
    if d.coefficient ≠ 0 ∧ d.coefficient % 10 = 0 then
      trimmed fuel ⟨d.coefficient / 10, d.exponent + 1⟩
    else d

/-- The exponent of the first digit. -/
def firstPlace (d : Scaled) : Int :=
  d.exponent + digitCount d.coefficient - 1

end Scaled

/-- Which of two equally near decimals is taken: the one whose last digit is even, or the greater one.
-/
inductive TieRule where
  | even
  | up
deriving DecidableEq, Repr

/-- Whether of two equally near decimals the lower one is taken, whose digits are given. -/
def TieRule.takesLower (coefficient : Nat) : TieRule → Bool
  | even => coefficient % 2 == 0
  | up => false

/-- The reals that round to one double, in units of a quarter of its last place: the double itself lies
between the ends, which round to it too if the interval is closed. -/
structure RoundingInterval where
  low : Nat
  mid : Nat
  high : Nat
  closed : Bool

/-- The interval of `m · 2 ^ e`, in units of `2 ^ (e - 2)`. Below a power of two the doubles lie
closer together, so the lower half is shorter there; an even `m` wins at both ends. -/
def roundingInterval (m : Nat) (e : Int) : RoundingInterval :=
  { low := if m = Nat.pow 2 52 ∧ -1074 < e then 4 * m - 1 else 4 * m - 2
    mid := 4 * m
    high := 4 * m + 2
    closed := m % 2 = 0 }

/-- Whether `x / y` lies between two numbers, strictly so unless `closed`. -/
def RoundingInterval.admits (i : RoundingInterval) (x y : Nat) : Bool :=
  if i.closed then decide (i.low * y ≤ x ∧ x ≤ i.high * y)
  else decide (i.low * y < x ∧ x < i.high * y)

/-- The decimal on the grid of `10 ^ k` that lies in the interval, which is in units of `2 ^ (e - 2)`,
and is nearest to its value, if one of the value's two neighbours on the grid lies there. -/
def onGrid? (tie : TieRule) (e k : Int) (i : RoundingInterval) : Option Scaled :=
  let unit := e - 2
  -- `c · 10 ^ k` is `c · up / down` units of `2 ^ (e - 2)`
  let up := Nat.pow 10 k.toNat * Nat.pow 2 (-unit).toNat
  let down := Nat.pow 10 (-k).toNat * Nat.pow 2 unit.toNat
  let below := i.mid * down / up
  let lowGap := i.mid * down - below * up
  let highGap := (below + 1) * up - i.mid * down
  match i.admits (below * up) down, i.admits ((below + 1) * up) down with
  | true, false => some ⟨below, k⟩
  | false, true => some ⟨below + 1, k⟩
  | true, true =>
    let takesLower := lowGap < highGap ∨ lowGap = highGap ∧ tie.takesLower below
    some ⟨if takesLower then below else below + 1, k⟩
  | false, false => none

/-- The first count of digits, from `17 - fuel` on, whose grid has a decimal that reads back. -/
def searchGrids (tie : TieRule) (m : Nat) (e first : Int) (i : RoundingInterval) :
    (fuel : Nat) → Scaled
  | 0 => ⟨m, 0⟩
  | fuel + 1 =>
    let k := first - (16 - fuel : Nat)
    match onGrid? tie e k i with
    | some d => d.trimmed 20
    | none => searchGrids tie m e first i fuel

/-- The shortest decimal that reads back as the positive double `m · 2 ^ e`, and 0 for `m = 0`. -/
def shortest (tie : TieRule) (m : Nat) (e : Int) : Scaled :=
  if m = 0 then ⟨0, 0⟩
  else
    let first := firstPlace (Binary64.numerator m e) (Binary64.denominator e)
    searchGrids tie m e first (roundingInterval m e) 17

end Orthomosaic.Decimal
