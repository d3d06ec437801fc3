import Orthomosaic.Text.Hex

/-!
# JSON documents

A document is kept as it is spelled: a number holds its literal and a string the characters between
its quotes, escapes included. So nothing is lost by reading a document, and what a number or a
string denotes is a question asked of it afterwards, by `Json.float?` and `Json.text?`.
-/

namespace Orthomosaic

/-- A JSON document. Numbers, strings and keys are as spelled, and members in the order written. -/
inductive Json where
  | null
  | bool (value : Bool)
  | number (literal : String)
  | string (spelling : String)
  | array (items : List Json)
  | object (members : List (String × Json))
deriving Inhabited

namespace Json

/-- The value of four hexadecimal digits. -/
def hexQuad? (a b c d : Char) : Option Nat :=
  Text.hexNumber? [a, b, c, d]

/-- The character that a short escape stands for. -/
def shortEscape? : Char → Option Char
  | '"' => some '"'
  | '\\' => some '\\'
  | '/' => some '/'
  | 'b' => some '\x08'
  | 'f' => some '\x0c'
  | 'n' => some '\n'
  | 'r' => some '\r'
  | 't' => some '\t'
  | _ => none

/-- The characters that a spelling denotes. A unit from the first half of the surrogate range
denotes a character only together with one from the second half. -/
def unescape? : List Char → Option (List Char)
  | [] => some []
  | '\\' :: 'u' :: a :: b :: c :: d :: rest =>
    match hexQuad? a b c d with
    | none => none
    | some unit =>
      if unit < 0xD800 ∨ 0xE000 ≤ unit then (unescape? rest).map (Char.ofNat unit :: ·)
      else if 0xDC00 ≤ unit then none
      else match rest with
        | '\\' :: 'u' :: e :: f :: g :: h :: rest =>
          match hexQuad? e f g h with
          | none => none
          | some low =>
            if 0xDC00 ≤ low ∧ low < 0xE000 then
              (unescape? rest).map
                (Char.ofNat (0x10000 + (unit - 0xD800) * 0x400 + (low - 0xDC00)) :: ·)
            else none
        | _ => none
  | '\\' :: c :: rest =>
    match shortEscape? c with
    | some x => (unescape? rest).map (x :: ·)
    | none => none
  | c :: rest => (unescape? rest).map (c :: ·)

/-- The spelling of one character: quotes, backslashes and control characters are escaped. -/
def escapeChar (c : Char) : List Char :=
  match c with
  | '"' => ['\\', '"']
  | '\\' => ['\\', '\\']
  | '\n' => ['\\', 'n']
  | '\r' => ['\\', 'r']
  | '\t' => ['\\', 't']
  | '\x08' => ['\\', 'b']
  | '\x0c' => ['\\', 'f']
  | _ =>
    if c.toNat < 32 then
      '\\' :: 'u' :: Text.hexDigits 4 c.toNat
    else [c]

/-- The spelling of a text. -/
def escape (s : String) : String :=
  String.ofList (s.toList.flatMap escapeChar)

/-- The string that denotes a text. -/
def ofText (s : String) : Json :=
  string (escape s)

/-- The number that denotes an integer. -/
def ofInt (n : Int) : Json :=
  number (toString n)

/-- The number that denotes a natural number. -/
def ofNat (n : Nat) : Json :=
  number (toString n)

/-- The text that a string denotes. -/
def text? : Json → Option String
  | string spelling => (unescape? spelling.toList).map String.ofList
  | _ => none

/-- The items of a list. -/
def items? : Json → Option (List Json)
  | array items => some items
  | _ => none

/-- The first member of an object under a key that needs no escapes. -/
def get? (key : String) : Json → Option Json
  | object members => (members.find? (·.1 == key)).map (·.2)
  | _ => none

end Json

end Orthomosaic
