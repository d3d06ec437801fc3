import Orthomosaic.Binary64
import Orthomosaic.Decimal.Reader
import Orthomosaic.Decimal.Text
import Orthomosaic.Scalar.Binary64
import Orthomosaic.Text.Blank
import Orthomosaic.Word

/-!
# Byte sizes

A size is written as a number and a unit, of which each is 1024 of the one before. `Size.parse?`
reads whole and fractional numbers, `Size.text` shows a size with one decimal, and `Size.exactText`
writes one so that it reads back as it was.
-/

namespace Orthomosaic.Size

/-- The bytes of a kilobyte. -/
def kilobyte : Nat := 1024

/-- The bytes of a megabyte. -/
def megabyte : Nat := 1024 * kilobyte

/-- The bytes of a gigabyte. -/
def gigabyte : Nat := 1024 * megabyte

/-- Whether a character is one of the ASCII letters. -/
def isLetter (c : Char) : Bool :=
  ('a' ≤ c && c ≤ 'z') || ('A' ≤ c && c ≤ 'Z')

/-- The bytes of a unit, in letters of either case. -/
def unit? (name : List Char) : Option Nat :=
  match name.map Char.toUpper with
  | [] | ['B'] => some 1
  | ['K'] | ['K', 'B'] => some kilobyte
  | ['M'] | ['M', 'B'] => some megabyte
  | ['G'] | ['G', 'B'] => some gigabyte
  | _ => none

/-- A whole number of units, if the bytes fit into 64 bits. -/
def wholeBytes? (n unit : Nat) : Option Nat :=
  if n * unit ≤ Word.unsigned64 then some (n * unit) else none

/-- A fractional number of units, rounded to bytes. The limit of 64 bits is the double nearest to
it, 2 to the 64. -/
def fractionalBytes? (x : Float) (unit : Nat) : Option Nat :=
  if ¬ x.isFinite ∨ x < 0 then none
  else
    let bytes := x * Float.ofNat unit
    if Float.ofNat Word.unsigned64 < bytes then none
    else some (Binary64.nearest 0 Word.unsigned64 bytes).toNat

/-- The bytes that a text denotes: a number up to the first letter, and a unit from there on. -/
def parse? (cs : List Char) : Option Nat := do
  let cs := Text.trim cs
  let unit ← unit? (Text.trim (cs.dropWhile (!isLetter ·)))
  let number := Text.trim (cs.takeWhile (!isLetter ·))
  match Decimal.readNat? Word.unsigned64 number with
  | some n => wholeBytes? n unit
  | none => fractionalBytes? (← Decimal.readFloat? number) unit

/-- A number of bytes in a unit, with one decimal. -/
def inUnit (bytes unit : Nat) (name : String) : String :=
  Decimal.fixed 1 (Float.ofNat bytes / Float.ofNat unit) ++ " " ++ name

/-- A size in the greatest unit that it reaches. -/
def text (bytes : Nat) : String :=
  if gigabyte ≤ bytes then inUnit bytes gigabyte "GB"
  else if megabyte ≤ bytes then inUnit bytes megabyte "MB"
  else if kilobyte ≤ bytes then inUnit bytes kilobyte "KB"
  else s!"{bytes} bytes"

/-- A size as a whole number of the greatest unit that divides it. -/
def exactText (bytes : Nat) : List Char :=
  if bytes = 0 then Decimal.digits bytes
  else if bytes % gigabyte = 0 then Decimal.digits (bytes / gigabyte) ++ ['G', 'B']
  else if bytes % megabyte = 0 then Decimal.digits (bytes / megabyte) ++ ['M', 'B']
  else if bytes % kilobyte = 0 then Decimal.digits (bytes / kilobyte) ++ ['K', 'B']
  else Decimal.digits bytes

end Orthomosaic.Size
