import Orthomosaic.Bounds.Basic

/-!
# Unions of rectangles

`Bounds.absorb` is the smallest rectangle that covers two others, and `Bounds.expand` the smallest
that also covers a point. In latitude that is the hull of two intervals. In longitude the two arcs
lie on a circle, and a narrowest arc that covers both starts at the western edge of one of them, so
there are two candidates to compare.
-/

namespace Orthomosaic.Bounds

open Scalar

variable {α : Type} [Scalar α]

/-- The span, capped at a full turn, of the arc that starts at the western edge of `a` and covers
both `a` and `b`. -/
def spanFrom (a b : Bounds α) : α :=
  least (greatest a.span (eastward a.west b.west + b.span)) 360

/-- Whether an arc reaches over the antimeridian by more than the tolerance. -/
def wraps (west span : α) : Bool :=
  decide (180 + tolerance < west + span)

/-- The choice between two arcs of one width: the second is taken if it alone keeps off the
antimeridian, or, when both or neither do, if it starts further east. -/
def prefersSecond (firstWest firstSpan secondWest secondSpan : α) : Bool :=
  match wraps firstWest firstSpan, wraps secondWest secondSpan with
  | true, false => true
  | false, true => false
  | _, _ => decide (firstWest + tolerance < secondWest)

/-- Whether the union of `a` and `b` starts at the western edge of `b`. -/
def startsAtSecond (a b : Bounds α) : Bool :=
  let keep := spanFrom a b
  let take := spanFrom b a
  if magnitude (keep - take) ≤ tolerance then prefersSecond a.west keep b.west take
  else decide (take < keep)

/-- The union of two rectangles. An empty one adds nothing. -/
def absorb (a b : Bounds α) : Bounds α :=
  if b.isEmpty then a
  else if a.isEmpty then b
  else
    let second := startsAtSecond a b
    { west := if second then b.west else a.west
      span := if second then spanFrom b a else spanFrom a b
      south := least a.south b.south
      north := greatest a.north b.north }

/-- The rectangle grown to include a point. -/
def expand (b : Bounds α) (lon lat : α) : Bounds α :=
  b.absorb (point lon lat)

/-- The hull of a list of points. -/
def ofPoints (points : List (α × α)) : Bounds α :=
  points.foldl (fun b p => b.expand p.1 p.2) empty

/-- The union of a list of rectangles. -/
def union (boxes : List (Bounds α)) : Bounds α :=
  boxes.foldl absorb empty

end Orthomosaic.Bounds
