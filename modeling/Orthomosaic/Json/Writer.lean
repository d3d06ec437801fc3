import Orthomosaic.Decimal.Text
import Orthomosaic.Json.Basic

/-!
# Writing JSON

`Json.compress` writes a document without blanks and `Json.pretty` with one item or member a line,
two blanks deeper than the list or object that holds it.
-/

namespace Orthomosaic.Json

/-- The number that denotes a double. -/
def ofFloat (x : Float) : Json :=
  number (Decimal.write Decimal.jsonStyle x)

mutual

/-- A document without blanks. -/
def compress : Json → String
  | null => "null"
  | bool value => if value then "true" else "false"
  | number literal => literal
  | string spelling => "\"" ++ spelling ++ "\""
  | array items => "[" ++ compressItems items ++ "]"
  | object members => "\x7b" ++ compressMembers members ++ "\x7d"

/-- Items with commas between them. -/
def compressItems : List Json → String
  | [] => ""
  | [item] => compress item
  | item :: rest => compress item ++ "," ++ compressItems rest

/-- Members with commas between them. -/
def compressMembers : List (String × Json) → String
  | [] => ""
  | [(key, value)] => "\"" ++ key ++ "\":" ++ compress value
  | (key, value) :: rest => "\"" ++ key ++ "\":" ++ compress value ++ "," ++ compressMembers rest

end

/-- A new line at some depth. -/
def newLine (depth : Nat) : String :=
  "\n" ++ String.ofList (List.replicate (2 * depth) ' ')

mutual

/-- A document over several lines, of which the first is not indented. -/
def prettyAt (depth : Nat) : Json → String
  | array [] => "[]"
  | array items => "[" ++ prettyItems (depth + 1) items ++ newLine depth ++ "]"
  | object [] => "\x7b\x7d"
  | object members => "\x7b" ++ prettyMembers (depth + 1) members ++ newLine depth ++ "\x7d"
  | value => compress value

/-- Items with a line each. -/
def prettyItems (depth : Nat) : List Json → String
  | [] => ""
  | [item] => newLine depth ++ prettyAt depth item
  | item :: rest => newLine depth ++ prettyAt depth item ++ "," ++ prettyItems depth rest

/-- Members with a line each. -/
def prettyMembers (depth : Nat) : List (String × Json) → String
  | [] => ""
  | [(key, value)] => newLine depth ++ "\"" ++ key ++ "\": " ++ prettyAt depth value
  | (key, value) :: rest =>
    newLine depth ++ "\"" ++ key ++ "\": " ++ prettyAt depth value ++ ","
      ++ prettyMembers depth rest

end

/-- A document over several lines. -/
def pretty (document : Json) : String :=
  prettyAt 0 document

end Orthomosaic.Json
