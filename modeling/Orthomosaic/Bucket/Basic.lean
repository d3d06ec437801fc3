import Orthomosaic.Bounds.Basic

/-!
# Terrain buckets

The globe is cut into rows an eighth of a degree high, and each row into buckets of one width, which
grows in thirteen bands from an eighth of a degree at the equator to twelve degrees at the poles.
A bucket is named by the whole degree of its south-western corner and, within that degree, by a
column and a row. A bucket wider than a degree lies in column 0 and starts at a multiple of its
width.

`Bucket.containing` finds the bucket of a point and `Bucket.sibling` the one some columns and rows
away.
-/

namespace Orthomosaic

open Scalar

/-- The height of every bucket, in degrees. -/
def bucketHeight {α : Type} [Scalar α] : α := 0.125

/-- The latitude that stands for the poles, so that a bucket is found there. -/
def poleLimit {α : Type} [Scalar α] : α := 89.99999

/-- How close to a whole degree a number counts as that degree. -/
def snapTolerance {α : Type} [Scalar α] : α := 1e-7

/-- The width of the buckets at a latitude. -/
def bucketSpan {α : Type} [Scalar α] (lat : α) : α :=
  if 89 ≤ lat then 12
  else if 86 ≤ lat then 4
  else if 83 ≤ lat then 2
  else if 76 ≤ lat then 1
  else if 62 ≤ lat then 0.5
  else if 22 ≤ lat then 0.25
  else if -22 ≤ lat then 0.125
  else if -62 ≤ lat then 0.25
  else if -76 ≤ lat then 0.5
  else if -83 ≤ lat then 1
  else if -86 ≤ lat then 2
  else if -89 ≤ lat then 4
  else 12

/-- The whole degree at or below a number. A negative number just above or below a whole degree is
taken as that degree. -/
def floorDegree {α : Type} [Scalar α] (x : α) : Int :=
  let whole := truncate x
  if 0 ≤ x ∨ magnitude (x - (whole : α)) < snapTolerance then whole else whole - 1

/-- The name of a bucket: the whole degrees at or below its south-western corner, and its column and
row within them, a row being an eighth of a degree high. -/
structure Bucket where
  lon : Int
  lat : Int
  x : Fin 8
  y : Fin 8
deriving DecidableEq, Repr

namespace Bucket

/-- What a number leaves over when eights are taken off. -/
def overEights (n : Nat) : Fin 8 :=
  Fin.ofNat 8 n

/-- The eighth that a number falls into, held from 0 to 7. -/
def eighth (n : Int) : Fin 8 :=
  overEights (min n.toNat 7)

variable {α : Type} [Scalar α]

/-- The western edge of the bucket that a longitude falls into, where buckets are wider than a
degree: a multiple of their width, and not below -180. -/
def wideLon (lon span : α) : Int :=
  let degree := floorDegree lon
  if 0 ≤ lon then
    truncate ((truncate ((degree : α) / span) : α) * span)
  else
    max (truncate ((truncate (((degree + 1 : Int) : α) / span) : α) * span - span)) (-180)

/-- The bucket that holds a point. -/
def containing (lon lat : α) : Bucket :=
  let lon := normalizeLon lon
  let lat := between (-90) poleLimit lat
  let span := bucketSpan lat
  let degree := floorDegree lon
  let latDegree := floorDegree lat
  { lon := if span ≤ 1 then degree else wideLon lon span
    lat := latDegree
    x := if span ≤ 1 then eighth (truncate ((lon - (degree : α)) / span)) else 0
    y := eighth (truncate ((lat - (latDegree : α)) * 8)) }

/-- The latitude of the centre. -/
def centerLat (b : Bucket) : α :=
  (b.lat : α) + ofNat b.y / 8 + bucketHeight / 2

/-- The width, in degrees of longitude. -/
def width (b : Bucket) : α :=
  bucketSpan (centerLat b)

/-- The height, in degrees of latitude. -/
def height (_b : Bucket) : α :=
  bucketHeight

/-- The longitude of the centre. -/
def centerLon (b : Bucket) : α :=
  let span : α := b.width
  if 1 ≤ span then (b.lon : α) + span / 2
  else (b.lon : α) + ofNat b.x * span + span / 2

/-- The rectangle that a bucket covers. -/
def bounds (b : Bucket) : Bounds α :=
  .ofCenter b.centerLon b.centerLat b.width b.height

variable (α) in
/-- The bucket some columns east and rows north of this one. Past the rim of a pole it stays in the
last row. -/
def sibling (b : Bucket) (columns rows : Int) : Bucket :=
  let lat : α := between (-poleLimit) poleLimit (b.centerLat + (rows : α) * bucketHeight)
  let lon : α := normalizeLon (b.centerLon + (columns : α) * bucketSpan lat)
  containing lon lat

end Bucket

end Orthomosaic
