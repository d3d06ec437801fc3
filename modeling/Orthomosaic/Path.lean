import Orthomosaic.Text.Split

/-!
# Paths

A path keeps its text as written. Two paths are equal when they name the same components, so that
repeated and trailing separators and inner dots make no difference; that equality is `==`, and it is
what every list of paths goes by.
-/

namespace Orthomosaic

/-- A path, as written. -/
structure Path where
  text : String
deriving Repr, Inhabited

/-- One step of a path. -/
inductive PathStep where
  | root
  | here
  | up
  | entry (name : List Char)
deriving DecidableEq, Repr

namespace Path

/-- Whether a path starts at the root of the tree. -/
def isAbsolute (p : Path) : Bool :=
  p.text.toList.head? == some '/'

/-- The step that a piece between separators makes; empty pieces and dots make none. -/
def stepOf? (piece : List Char) : Option PathStep :=
  if piece = [] ∨ piece = ['.'] then none
  else if piece = ['.', '.'] then some .up
  else some (.entry piece)

/-- The steps of a path. A dot counts only at the start of a path that is not absolute. -/
def steps (p : Path) : List PathStep :=
  let pieces := Text.splitOn '/' p.text.toList
  let start : List PathStep :=
    if p.isAbsolute then [.root]
    else if pieces.head? = some ['.'] then [.here]
    else []
  start ++ pieces.filterMap stepOf?

instance : BEq Path := ⟨fun p q => p.steps == q.steps⟩

/-- The path `q` taken from `p`: an absolute one replaces it, any other is written behind it with a
separator between them. -/
def join (p q : Path) : Path :=
  if q.isAbsolute || p.text.isEmpty then q
  else if p.text.toList.getLast? == some '/' then ⟨p.text ++ q.text⟩
  else ⟨p.text ++ "/" ++ q.text⟩

/-- Whether the text ends like the name of a directory. -/
def endsWithSeparator (p : Path) : Bool :=
  p.text.toList.getLast? == some '/'

/-- Whether the last entry of the text, separators behind it aside, is a dot. -/
def endsInDot (p : Path) : Bool :=
  ((Text.splitOn '/' p.text.toList).filter (· ≠ [])).getLast? == some ['.']

/-- The pieces of a path without those at the end that make no step. -/
def trimPieces (pieces : List (List Char)) : List (List Char) :=
  (pieces.reverse.dropWhile fun piece => piece = [] ∨ piece = ['.']).reverse

/-- The path above a path: its text up to the last entry, without separators and dots at its end.
There is none above the root and above the empty path. -/
def parent? (p : Path) : Option Path :=
  match p.steps with
  | [] => none
  | [.root] => none
  | [.here] => some ⟨""⟩
  | first :: _ =>
    let pieces := Text.splitOn '/' p.text.toList
    let leading := if first = .root ∨ first = .here then 1 else 0
    let body := trimPieces (trimPieces (pieces.drop leading)).dropLast
    let above := pieces.take leading ++ body
    some ⟨if above = [[]] then "/" else String.ofList (Text.joinWith '/' above)⟩

/-- The extension of the last entry: what stands behind its last dot, unless that is its first
character. -/
def extension? (p : Path) : Option (List Char) :=
  match p.steps.getLast? with
  | some (.entry name) =>
    match (Text.splitOn '.' name).reverse with
    | ending :: before =>
      if before = [] ∨ before = [[]] then none else some ending
    | [] => none
  | _ => none

end Path

end Orthomosaic
