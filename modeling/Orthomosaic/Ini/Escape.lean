import Orthomosaic.Text.Hex

/-!
# Escapes

Backslashes and control characters are written as escapes, so that a value stays on its line.
Reading knows more escapes than writing uses: any character behind a backslash that names nothing
stands for itself.
-/

namespace Orthomosaic.Ini

/-- The character that a letter behind a backslash stands for. -/
def unescape (c : Char) : Char :=
  if c = '0' then '\x00'
  else if c = 'a' then '\x07'
  else if c = 'b' then '\x08'
  else if c = 't' then '\t'
  else if c = 'r' then '\r'
  else if c = 'n' then '\n'
  else c

/-- The character of a code of hexadecimal digits, which may have a plus sign in front. There is
none if the number is no Unicode scalar value. -/
def charOfCode? (code : List Char) : Option Char := do
  let n ← Text.hexNumber? (if code.head? = some '+' then code.drop 1 else code)
  if n < 0xD800 ∨ (0xE000 ≤ n ∧ n < 0x110000) then some (Char.ofNat n) else none

/-- Whether a character is one of the control characters of ASCII. -/
def isControl (c : Char) : Bool :=
  c.toNat < 0x20 || c.toNat == 0x7F

/-- How a character is written. -/
def escape (c : Char) : List Char :=
  if c = '\\' then ['\\', '\\']
  else if c = '\x00' then ['\\', '0']
  else if c = '\x07' then ['\\', 'a']
  else if c = '\x08' then ['\\', 'b']
  else if c = '\t' then ['\\', 't']
  else if c = '\n' then ['\\', 'n']
  else if c = '\x0b' then ['\\', 'v']
  else if c = '\x0c' then ['\\', 'f']
  else if c = '\r' then ['\\', 'r']
  else if isControl c then '\\' :: 'x' :: Text.hexDigits 4 c.toNat
  else [c]

end Orthomosaic.Ini
