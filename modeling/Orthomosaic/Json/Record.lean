import Orthomosaic.Json.Reader

/-!
# Records of numbers

A record with named numbers may be written as an object, with its fields in any order and other
members ignored, or as a list of exactly the fields in their own order.
-/

namespace Orthomosaic.Json

/-- The one number under a name. A name that is missing or repeated has none. -/
def field? (members : List (String × Json)) (name : String) : Option Float :=
  match members.filter (·.1 == name) with
  | [(_, value)] => value.float?
  | _ => none

/-- The members of an object under the texts that their keys denote. -/
def textMembers? (members : List (String × Json)) : Option (List (String × Json)) :=
  members.mapM fun (key, value) => (string key).text?.map (·, value)

/-- The numbers of a record, in the order of their names. -/
def numbers? (names : List String) : Json → Option (List Float)
  | array items =>
    if items.length = names.length then items.mapM float? else none
  | object members => do
    let members ← textMembers? members
    names.mapM (field? members)
  | _ => none


end Orthomosaic.Json
