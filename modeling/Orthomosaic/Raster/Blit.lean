import Orthomosaic.Raster.Conversion

/-!
# Painting one raster onto another

`Raster.blit` copies a source onto a destination with the source's top left pixel at a given place,
which may lie anywhere, also far outside. Only the overlap is touched, and the source takes on the
format of the destination.
-/

namespace Orthomosaic.Raster

/-- Along one axis, the first place of the source that lands on the destination and the number of
places that do, for a source that starts at `offset`. -/
def overlap (offset : Int) (source target : Nat) : Nat × Nat :=
  let first := (-offset).toNat
  (first, min source (target - offset).toNat - first)

/-- The pixels of a target with `count` of them, from `start` on, taken from a source from `first`
on. -/
def copyRun (target : Array Pixel) (start : Nat) (source : Array Pixel) (first count : Nat) :
    Array Pixel :=
  (List.range count).foldl
    (fun a i =>
      match source[first + i]? with
      | some p => a.setIfInBounds (start + i) p
      | none => a)
    target

/-- Copying a run keeps the number of pixels: places beyond the target are passed over. -/
theorem size_copyRun (target : Array Pixel) (start : Nat) (source : Array Pixel)
    (first count : Nat) : (copyRun target start source first count).size = target.size := by
  unfold copyRun
  generalize List.range count = places
  induction places generalizing target with
  | nil => rfl
  | cons i is ih =>
    rw [List.foldl_cons, ih]
    split
    · exact Array.size_setIfInBounds
    · rfl

/-- Copying a run makes no pixel of its own. -/
theorem mem_copyRun {target : Array Pixel} {start : Nat} {source : Array Pixel} {first count : Nat}
    {p : Pixel} (h : p ∈ copyRun target start source first count) : p ∈ target ∨ p ∈ source := by
  unfold copyRun at h
  generalize List.range count = places at h
  induction places generalizing target with
  | nil => exact .inl h
  | cons i is ih =>
    rw [List.foldl_cons] at h
    rcases ih h with hp | hp
    · split at hp
      · next q hq =>
        rcases Array.mem_or_eq_of_mem_setIfInBounds hp with hp | rfl
        · exact .inl hp
        · exact .inr (Array.mem_of_getElem? hq)
      · exact .inl hp
    · exact .inr hp

/-- The pixels of a destination after painting the overlap, a run of pixels for each row. -/
def blitPixels (dest source : Raster) (x y : Int) : Array Pixel :=
  let (left, columns) := overlap x source.width dest.width
  let (top, rows) := overlap y source.height dest.height
  (List.range rows).foldl
    (fun a (j : Nat) =>
      copyRun a ((y + top + j).toNat * dest.width + (x + left).toNat)
        source.pixels ((top + j) * source.width + left) columns)
    dest.pixels

/-- Painting keeps the number of pixels of the destination. -/
theorem size_blitPixels (dest source : Raster) (x y : Int) :
    (blitPixels dest source x y).size = dest.pixels.size := by
  unfold blitPixels
  dsimp only
  generalize List.range (overlap y source.height dest.height).2 = rows
  generalize dest.pixels = a
  induction rows generalizing a with
  | nil => rfl
  | cons j js ih => rw [List.foldl_cons, ih, size_copyRun]

/-- Every pixel after painting is one of the destination or one of the source. -/
theorem mem_blitPixels {dest source : Raster} {x y : Int} {p : Pixel}
    (h : p ∈ blitPixels dest source x y) : p ∈ dest.pixels ∨ p ∈ source.pixels := by
  unfold blitPixels at h
  dsimp only at h
  generalize List.range (overlap y source.height dest.height).2 = rows at h
  generalize dest.pixels = a at h ⊢
  induction rows generalizing a with
  | nil => exact .inl h
  | cons j js ih =>
    rw [List.foldl_cons] at h
    rcases ih _ h with hp | hp
    · exact mem_copyRun hp
    · exact .inr hp

/-- The destination with the source painted onto it, its top left pixel in column `x` and row `y`. -/
def blit (dest source : Raster) (x y : Int) : Raster where
  width := dest.width
  height := dest.height
  format := dest.format
  pixels := blitPixels dest (source.convert dest.format) x y
  size_pixels := by rw [size_blitPixels, dest.size_pixels]
  length_pixel := by
    intro p hp
    rcases mem_blitPixels hp with h | h
    · exact dest.length_pixel p h
    · have := (source.convert dest.format).length_pixel p h
      rwa [format_convert] at this

end Orthomosaic.Raster
