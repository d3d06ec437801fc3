import Orthomosaic.Json.Basic
import Orthomosaic.Decimal.Reader

/-!
# Reading JSON

A strict reader: one document, blanks around its tokens, and nothing else.
-/

namespace Orthomosaic.Json

open Decimal (isDigit)

/-- Whether a character may stand between tokens. -/
def isBlank (c : Char) : Bool :=
  c == ' ' || c == '\n' || c == '\t' || c == '\r'

/-- What is left of a text behind its leading blanks. -/
def skipBlanks (cs : List Char) : List Char :=
  cs.dropWhile isBlank

/-- The characters up to the closing quote and what follows it. Escapes must be well formed, and
control characters must be escaped. -/
def readString? (acc : List Char) : List Char → Option (List Char × List Char)
  | [] => none
  | '"' :: rest => some (acc.reverse, rest)
  | '\\' :: 'u' :: a :: b :: c :: d :: rest =>
    if (hexQuad? a b c d).isSome then readString? (d :: c :: b :: a :: 'u' :: '\\' :: acc) rest
    else none
  | '\\' :: c :: rest =>
    if (shortEscape? c).isSome then readString? (c :: '\\' :: acc) rest else none
  | c :: rest => if c.toNat < 32 then none else readString? (c :: acc) rest

/-- A run of digits and what follows it. -/
def takeDigits (cs : List Char) : List Char × List Char :=
  (cs.takeWhile isDigit, cs.dropWhile isDigit)

/-- The integer part of a number: a lone zero, or digits that start with none. -/
def readWhole? (cs : List Char) : Option (List Char × List Char) :=
  match takeDigits cs with
  | ([], _) => none
  | ('0' :: _ :: _, _) => none
  | found => some found

/-- The point and the digits behind it, if a point is there. -/
def readPart? (cs : List Char) : Option (List Char × List Char) :=
  match cs with
  | '.' :: rest =>
    match takeDigits rest with
    | ([], _) => none
    | (ds, rest) => some ('.' :: ds, rest)
  | _ => some ([], cs)

/-- The mark, sign and digits of an exponent, if a mark is there. -/
def readPower? (cs : List Char) : Option (List Char × List Char) :=
  match cs with
  | [] => some ([], [])
  | mark :: rest =>
    if mark = 'e' || mark = 'E' then
      let sign := rest.take 1 |>.filter (fun c => c == '+' || c == '-')
      match takeDigits (rest.drop sign.length) with
      | ([], _) => none
      | (ds, rest) => some (mark :: sign ++ ds, rest)
    else some ([], cs)

/-- A number and what follows it. -/
def readNumber? (cs : List Char) : Option (List Char × List Char) := do
  let sign := cs.take 1 |>.filter (· == '-')
  let (whole, rest) ← readWhole? (cs.drop sign.length)
  let (part, rest) ← readPart? rest
  let (power, rest) ← readPower? rest
  some (sign ++ whole ++ part ++ power, rest)

/-- A word, if the text starts with it. -/
def readWord? (word : String) (value : Json) (cs : List Char) : Option (Json × List Char) :=
  if word.toList.isPrefixOf cs then some (value, cs.drop word.length) else none

mutual

/-- A document and what follows it; `fuel` bounds how deep and long it may be. -/
def readValue? : (fuel : Nat) → List Char → Option (Json × List Char)
  | 0, _ => none
  | fuel + 1, cs =>
    match skipBlanks cs with
    | '"' :: rest =>
      (readString? [] rest).map fun (s, rest) => (string (String.ofList s), rest)
    | '[' :: rest =>
      match skipBlanks rest with
      | ']' :: rest => some (array [], rest)
      | rest => (readItems? fuel [] rest).map fun (items, rest) => (array items, rest)
    | '\x7b' :: rest =>
      match skipBlanks rest with
      | '\x7d' :: rest => some (object [], rest)
      | rest => (readMembers? fuel [] rest).map fun (members, rest) => (object members, rest)
    | 'n' :: rest => readWord? "null" null ('n' :: rest)
    | 't' :: rest => readWord? "true" (bool true) ('t' :: rest)
    | 'f' :: rest => readWord? "false" (bool false) ('f' :: rest)
    | rest => (readNumber? rest).map fun (n, rest) => (number (String.ofList n), rest)

/-- The items of a list up to its closing bracket. -/
def readItems? : (fuel : Nat) → List Json → List Char → Option (List Json × List Char)
  | 0, _, _ => none
  | fuel + 1, acc, cs =>
    match readValue? fuel cs with
    | none => none
    | some (item, rest) =>
      match skipBlanks rest with
      | ',' :: rest => readItems? fuel (item :: acc) rest
      | ']' :: rest => some ((item :: acc).reverse, rest)
      | _ => none

/-- The members of an object up to its closing brace. -/
def readMembers? :
    (fuel : Nat) → List (String × Json) → List Char → Option (List (String × Json) × List Char)
  | 0, _, _ => none
  | fuel + 1, acc, cs =>
    match skipBlanks cs with
    | '"' :: rest =>
      match readString? [] rest with
      | none => none
      | some (key, rest) =>
        match skipBlanks rest with
        | ':' :: rest =>
          match readValue? fuel rest with
          | none => none
          | some (value, rest) =>
            let acc := (String.ofList key, value) :: acc
            match skipBlanks rest with
            | ',' :: rest => readMembers? fuel acc rest
            | '\x7d' :: rest => some (acc.reverse, rest)
            | _ => none
        | _ => none
    | _ => none

end

/-- The document that a text spells. -/
def parse? (s : String) : Option Json :=
  let cs := s.toList
  match readValue? (cs.length + 1) cs with
  | some (value, rest) => if (skipBlanks rest).isEmpty then some value else none
  | none => none

/-- The double nearest to a number; one too large for the doubles denotes none. -/
def float? : Json → Option Float
  | number literal =>
    match Decimal.readFloat? literal.toList with
    | some x => if x.isFinite then some x else none
    | none => none
  | _ => none

/-- The integer that a number without point and exponent denotes. -/
def int? : Json → Option Int
  | number literal => literal.toInt?
  | _ => none

end Orthomosaic.Json
