import Orthomosaic.Decimal.Digits

/-!
# Numbers read from text

The grammar of a floating-point number is an optional sign, then digits with an optional point among
them and an optional exponent, or a word for infinity or for no number. `Decimal.toFloat` is the
double nearest to a decimal, however many digits it has and however far its exponent goes.
-/

namespace Orthomosaic.Decimal

/-- Whether a character is one of the ten ASCII digits. -/
def isDigit (c : Char) : Bool :=
  '0' ≤ c && c ≤ '9'

/-- The value of a run of digits, read after the digits of `acc`. -/
def readDigits (acc : Nat) (ds : List Char) : Nat :=
  ds.foldl (fun n c => 10 * n + (c.toNat - '0'.toNat)) acc

/-- The natural number written by a non-empty run of digits. -/
def natOfDigits? (cs : List Char) : Option Nat :=
  if cs.isEmpty || !cs.all isDigit then none else some (readDigits 0 cs)

/-- A natural number of at most `greatest`, written in digits with an optional plus sign. -/
def readNat? (greatest : Nat) (cs : List Char) : Option Nat := do
  let n ← natOfDigits? (if cs.head? = some '+' then cs.drop 1 else cs)
  if n ≤ greatest then some n else none

/-- The double nearest to `coefficient · 10 ^ exponent`. Beyond the range of the doubles that is
infinity or zero, which needs no power of ten. -/
def toFloat (coefficient : Nat) (exponent : Int) : Float :=
  if coefficient = 0 then 0
  else
    let place := exponent + digitCount coefficient
    if 310 < place then 1 / 0
    else if place < -330 then 0
    else OfScientific.ofScientific coefficient (decide (exponent < 0)) exponent.natAbs

/-- The sign in front of a number and what follows it. -/
def takeSign (cs : List Char) : Bool × List Char :=
  match cs with
  | '-' :: rest => (true, rest)
  | '+' :: rest => (false, rest)
  | _ => (false, cs)

/-- The exponent behind the digits of a number, 0 if nothing is there. -/
def readExponent? (cs : List Char) : Option Int :=
  match cs with
  | [] => some 0
  | c :: rest =>
    if c = 'e' || c = 'E' then do
      let (negative, ds) := takeSign rest
      let n ← natOfDigits? ds
      some (if negative then -(n : Int) else n)
    else none

/-- An unsigned number: digits on at least one side of an optional point, then an exponent. -/
def readMagnitude? (cs : List Char) : Option Float := do
  let whole := cs.takeWhile isDigit
  let rest := cs.dropWhile isDigit
  let hasPoint := rest.head? = some '.'
  let behind := if hasPoint then rest.drop 1 else []
  let part := behind.takeWhile isDigit
  let tail := if hasPoint then behind.dropWhile isDigit else rest
  if whole.isEmpty && part.isEmpty then none
  let exponent ← readExponent? tail
  some (toFloat (readDigits 0 (whole ++ part)) (exponent - part.length))

/-- The double that a text denotes. -/
def readFloat? (cs : List Char) : Option Float := do
  let (negative, rest) := takeSign cs
  let word := String.ofList (rest.map Char.toLower)
  let x ←
    if word = "inf" || word = "infinity" then some (1 / 0)
    else if word = "nan" then some (0 / 0)
    else readMagnitude? rest
  some (if negative then -x else x)

end Orthomosaic.Decimal
