import Orthomosaic.Decimal.Shortest

/-!
# Doubles as text

Three ways to write a double: with the fewest digits that read back (`Decimal.write`), with a fixed
number of decimals (`Decimal.fixed`), and with one digit before the point and an exponent
(`Decimal.scientific`). What differs between one output and another is held in a `Decimal.Style`.
-/

namespace Orthomosaic.Decimal

open Binary64 (Value)

/-- The choices that a format makes when it writes the shortest digits of a double: for which places of
the first digit it needs no exponent, which of two decimals it takes in a tie, and what follows a whole
number. -/
structure Style where
  positional : Int → Bool
  tie : TieRule
  wholeSuffix : String
  notANumber : String
  infinity : String

/-- Messages show a number without an exponent and a whole number without a point. Of two equally
near decimals they show the greater one. -/
def messageStyle : Style :=
  { positional := fun _ => true
    tie := .up
    wholeSuffix := "", notANumber := "NaN", infinity := "inf" }

/-- JSON documents show a point in every number without an exponent, and write an exponent from
`1e+16` up and below `0.00001`. Of two equally near decimals they show the one with an even last
digit. They have no word for what is no finite number. -/
def jsonStyle : Style :=
  { positional := fun place => decide (-5 ≤ place ∧ place ≤ 15)
    tie := .even
    wholeSuffix := ".0", notANumber := "null", infinity := "null" }

/-- The minus sign of a negative number. -/
def signText (negative : Bool) : String :=
  if negative then "-" else ""

/-- The digits of a decimal with a point among them, before them or after them. -/
def positionalText (suffix : String) (d : Scaled) : String :=
  let ds := digits d.coefficient
  if 0 ≤ d.exponent then
    String.ofList (ds ++ List.replicate d.exponent.toNat '0') ++ suffix
  else String.ofList (pointed (-d.exponent).toNat d.coefficient)

/-- A whole number with its sign. -/
def exponentText (e : Int) : String :=
  (if e < 0 then "-" else "+") ++ String.ofList (digits e.natAbs)

/-- The digits of a decimal, a point after the first one, and the exponent of that one. -/
def exponentialText (d : Scaled) : String :=
  let ds := digits d.coefficient
  let rest := ds.drop 1
  String.ofList (ds.take 1) ++ (if rest.isEmpty then "" else "." ++ String.ofList rest)
    ++ "e" ++ exponentText d.firstPlace

/-- A double with the fewest digits that read back. -/
def write (style : Style) (x : Float) : String :=
  match Binary64.value x with
  | .notANumber => style.notANumber
  | .infinite negative => signText negative ++ style.infinity
  | .finite negative m e =>
    let d := shortest style.tie m e
    signText negative ++
      if m = 0 || style.positional d.firstPlace then positionalText style.wholeSuffix d
      else exponentialText d

/-- A double as messages show it. -/
def message (x : Float) : String :=
  write messageStyle x

/-- A double with a fixed number of decimals, halves going to the even neighbour. The sign stays
even if only zeros are left. -/
def fixed (places : Nat) (x : Float) : String :=
  match Binary64.value x with
  | .notANumber => "NaN"
  | .infinite negative => signText negative ++ "inf"
  | .finite negative m e =>
    let n := roundEven (Binary64.numerator m e * Nat.pow 10 places) (Binary64.denominator e)
    signText negative ++ String.ofList (pointed places n)

/-- A double with one digit before the point, a fixed number behind it, and an exponent. -/
def scientific (places : Nat) (x : Float) : String :=
  match Binary64.value x with
  | .notANumber => "NaN"
  | .infinite negative => signText negative ++ "inf"
  | .finite negative m e =>
    let num := Binary64.numerator m e
    let den := Binary64.denominator e
    let place := if m = 0 then 0 else firstPlace num den
    let (num, den) := shift num den (places - place)
    let n := roundEven num den
    -- rounding up may have added a digit
    let carried := decide (Nat.pow 10 (places + 1) ≤ n)
    let n := if carried then n / 10 else n
    let place := if carried then place + 1 else place
    signText negative ++ String.ofList (pointed places n) ++ "e"
      ++ signText (decide (place < 0)) ++ String.ofList (digits place.natAbs)

/-- From this size on a measured value is reported with an exponent. -/
def scientificFrom : Float := 1e9

/-- A measured value as reports show it: a fixed number of decimals with no sign on a zero, and from
a thousand million on an exponent with six decimals. -/
def measured (places : Nat) (x : Float) : String :=
  if x.isNaN then "nan"
  else if scientificFrom ≤ x.abs then scientific 6 x
  else
    let text := fixed places x
    if text.toList.all (fun c => c == '-' || c == '0' || c == '.') then fixed places x.abs else text

end Orthomosaic.Decimal
