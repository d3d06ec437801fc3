import Orthomosaic.Raster.Basic
import Orthomosaic.Raster.Real

/-!
# Scaling

A raster is scaled by a triangular filter, first along its columns and then along its rows. Each new
sample is a weighted mean of the old ones around its place; when an axis shrinks the filter widens
with it. All of this is done in binary32.
-/

namespace Orthomosaic

/-- The old places that a new one is a mean of: the first of them, and the weight of each. -/
structure Taps where
  first : Nat
  weights : List UInt32

namespace Taps

/-- The triangular filter: 1 at its middle and 0 from a distance of 1 on. -/
def triangle (x : Float32) : Float32 :=
  if x.abs < 1 then 1 - x.abs else 0

/-- The taps of place `i` when `n` places become `m`. -/
def ofPlace (n m i : Nat) : Taps :=
  let ratio := n.toFloat32 / m.toFloat32
  let reach := if ratio < 1 then 1 else ratio
  let middle := (i.toFloat32 + 0.5) * ratio
  let left := min (Real32.floorNat (middle - reach)) (n - 1)
  let right := min (max (Real32.ceilNat (middle + reach)) (left + 1)) n
  let center := middle - 0.5
  let weights := (List.range (right - left)).map fun k =>
    triangle (((left + k).toFloat32 - center) / reach)
  let total := weights.foldl (· + ·) 0
  ⟨left, weights.map fun w => (w / total).toBits⟩

/-- The weighted sum of the samples at the tapped places. -/
def sum (t : Taps) (sample : Nat → UInt32) : UInt32 :=
  (t.weights.foldl
    (fun (acc : UInt32 × Nat) w => (Real32.add acc.1 (Real32.mul (sample acc.2) w), acc.2 + 1))
    (0, t.first)).1

end Taps

/-- A stored sample as the number it stands for. -/
def Depth.toNumber (depth : Depth) (w : UInt32) : UInt32 :=
  match depth with
  | byte | word => Real32.ofInteger w
  | real => w

/-- A number as a stored sample: held between 0 and full intensity, and rounded for integers. -/
def Depth.ofNumber (depth : Depth) (w : UInt32) : UInt32 :=
  let x := Float32.ofBits w
  match depth with
  | byte => Real32.roundTo 255 w
  | word => Real32.roundTo 65535 w
  | real => if x < 0 then 0 else if 1 < x then Real32.one else w

namespace Raster

/-- The samples after the columns have been scaled to `height` rows, as numbers: those of column `x`
and row `y` start at `(y * width + x) * sampleCount`. -/
def scaleColumns (r : Raster) (height : Nat) : Array UInt32 :=
  let count := r.format.sampleCount
  let taps := Array.ofFn (n := height) fun i => Taps.ofPlace r.height height i
  let source := r.pixels.map fun p => p.map r.format.depth.toNumber
  Array.ofFn (n := height * r.width * count) fun i =>
    let place := i / count
    let channel := i % count
    match taps[place / r.width]? with
    | some t => t.sum fun y => (source.getD (y * r.width + place % r.width) []).getD channel 0
    | none => 0

/-- A raster scaled by the filter; one with an empty side becomes zero. -/
def resample (r : Raster) (width height : Nat) : Raster :=
  if r.width = 0 ∨ r.height = 0 then zero width height r.format
  else
    let count := r.format.sampleCount
    let columns := r.scaleColumns height
    let taps := Array.ofFn (n := width) fun i => Taps.ofPlace r.width width i
    tabulate width height r.format
      (fun x y => (List.range count).map fun k =>
        match taps[x]? with
        | some t =>
          r.format.depth.ofNumber (t.sum fun x => columns.getD ((y * r.width + x) * count + k) 0)
        | none => 0)
      (fun _ _ => by rw [List.length_map, List.length_range])

/-- A raster scaled to a size. One of that size already stays as it is. -/
def scale (r : Raster) (width height : Nat) : Raster :=
  if r.width = width ∧ r.height = height then r else r.resample width height

/-- A scaled raster has the width asked for. -/
theorem width_scale (r : Raster) (w h : Nat) : (r.scale w h).width = w := by
  unfold scale resample
  split
  · next hr => exact hr.1
  · split <;> rfl

/-- A scaled raster has the height asked for. -/
theorem height_scale (r : Raster) (w h : Nat) : (r.scale w h).height = h := by
  unfold scale resample
  split
  · next hr => exact hr.2
  · split <;> rfl

/-- Scaling keeps the format. -/
theorem format_scale (r : Raster) (w h : Nat) : (r.scale w h).format = r.format := by
  unfold scale resample
  split
  · rfl
  · split <;> rfl

end Raster

end Orthomosaic
