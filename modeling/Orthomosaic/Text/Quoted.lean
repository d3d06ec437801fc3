import Orthomosaic.Text.Visible

/-!
# Quoted characters

Messages that quote a text write what is not seen in it by escapes: line breaks, tabs and the zero
character by letters, anything else by its number. A backslash stands in front of a backslash and of
a quote of the kind that is used.
-/

namespace Orthomosaic.Text

/-- How a character is written between two quotes of a kind. -/
def quotedChar (quote : Char) (c : Char) : List Char :=
  if c = '\x00' then ['\\', '0']
  else if c = '\t' then ['\\', 't']
  else if c = '\r' then ['\\', 'r']
  else if c = '\n' then ['\\', 'n']
  else if c = '\\' ∨ c = quote then ['\\', c]
  else if isVisible c then [c]
  else ['\\', 'u', '\x7b'] ++ Nat.toDigits 16 c.toNat ++ ['\x7d']

/-- A text between double quotes. -/
def quoted (cs : List Char) : String :=
  String.ofList ('\x22' :: cs.flatMap (quotedChar '\x22') ++ ['\x22'])

/-- A character between single quotes. -/
def quotedSingle (c : Char) : String :=
  String.ofList ('\x27' :: quotedChar '\x27' c ++ ['\x27'])

end Orthomosaic.Text
