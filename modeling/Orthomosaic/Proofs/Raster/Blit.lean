import Mathlib.Data.List.Range
import Mathlib.Tactic.Common
import Orthomosaic.Raster.Blit

/-!
# What painting does to a pixel

`Raster.blit` copies runs of an array. Here the copy is read as a rule for pixels: at a place that the
source covers one finds the source's pixel, in the format of the destination, and at every other
place the destination's own (`Raster.pixel?_blit`). The source may start anywhere, also left of or
above the destination, and may reach beyond it.

Two rasters of one size and format are equal when their pixels are (`Raster.ext_pixel?`). So it makes
no difference which of two sources is painted first if they do not overlap (`Raster.blit_comm`).
-/

namespace Orthomosaic.Raster

/-! ## Pixels of a raster -/

/-- Every place within the sides has a pixel. -/
theorem exists_pixel? (r : Raster) {x y : ℕ} (hx : x < r.width) (hy : y < r.height) :
    ∃ p, r.pixel? x y = some p := by
  have hi : y * r.width + x < r.pixels.size := by
    rw [r.size_pixels]
    exact index_lt hx hy
  exact ⟨r.pixels[y * r.width + x], (if_pos ⟨hx, hy⟩).trans (Array.getElem?_eq_getElem hi)⟩

theorem getElem?_of_pixel? {r : Raster} {x y : ℕ} {p : Pixel} (h : r.pixel? x y = some p) :
    r.pixels[y * r.width + x]? = some p := by
  unfold pixel? at h
  split_ifs at h
  exact h

theorem length_of_pixel? {r : Raster} {x y : ℕ} {p : Pixel} (h : r.pixel? x y = some p) :
    p.length = r.format.sampleCount :=
  r.length_pixel p (Array.mem_of_getElem? (getElem?_of_pixel? h))

/-- A raster is known by its sides, its format and its pixels. -/
theorem ext_pixel? {r s : Raster} (hwidth : r.width = s.width) (hheight : r.height = s.height)
    (hformat : r.format = s.format)
    (hpixels : ∀ x < r.width, ∀ y < r.height, r.pixel? x y = s.pixel? x y) : r = s := by
  have harray : r.pixels = s.pixels := by
    refine Array.ext_getElem? fun i => ?_
    rcases Nat.lt_or_ge i (r.width * r.height) with hi | hi
    · have hpos : 0 < r.width := Nat.pos_of_mul_pos_right (Nat.zero_lt_of_lt hi)
      have hx : i % r.width < r.width := Nat.mod_lt i hpos
      have hy : i / r.width < r.height := Nat.div_lt_of_lt_mul hi
      have hpixel := hpixels _ hx _ hy
      unfold pixel? at hpixel
      rw [if_pos ⟨hx, hy⟩, if_pos ⟨hwidth ▸ hx, hheight ▸ hy⟩, ← hwidth, Nat.mul_comm,
        Nat.div_add_mod] at hpixel
      exact hpixel
    · rw [Array.getElem?_eq_none (by rw [r.size_pixels]; exact hi),
        Array.getElem?_eq_none (by rw [s.size_pixels, ← hwidth, ← hheight]; exact hi)]
  cases r
  cases s
  cases hwidth
  cases hheight
  cases hformat
  cases harray
  rfl

/-! ## Copying runs -/

/-- A place after a run has been copied: within the run it holds the source's pixel. -/
theorem getElem?_copyRun (target : Array Pixel) (start : ℕ) (source : Array Pixel) (first : ℕ)
    {count : ℕ} (hsource : 0 < count → first + count ≤ source.size) {k : ℕ}
    (hk : k < target.size) :
    (copyRun target start source first count)[k]?
      = if start ≤ k ∧ k < start + count then source[first + (k - start)]? else target[k]? := by
  induction count with
  | zero =>
    rw [if_neg (by omega)]
    rfl
  | succ count ih =>
    have hfit := hsource (Nat.succ_pos count)
    have hpixel : source[first + count]? = some source[first + count] :=
      Array.getElem?_eq_getElem (by omega)
    have hlast : copyRun target start source first (count + 1)
        = (copyRun target start source first count).setIfInBounds (start + count)
          source[first + count] := by
      unfold copyRun
      rw [List.range_succ, List.foldl_append, List.foldl_cons, List.foldl_nil, hpixel]
    rw [hlast]
    -- the place is the one written last, or nothing happens to it
    by_cases hhere : k = start + count
    · rw [hhere, Array.getElem?_setIfInBounds_self_of_lt (by rw [size_copyRun, ← hhere]; exact hk),
        if_pos (by omega), Nat.add_sub_cancel_left, hpixel]
    · rw [Array.getElem?_setIfInBounds_ne (Ne.symm hhere), ih (by omega)]
      by_cases hin : start ≤ k ∧ k < start + count
      · rw [if_pos hin, if_pos (by omega)]
      · rw [if_neg hin, if_neg (by omega)]

/-- A run within one row meets a place only in that row. -/
theorem mem_run_iff (row y : ℕ) {width left count x : ℕ} (hx : x < width)
    (hfit : 0 < count → left + count ≤ width) :
    row * width + left ≤ y * width + x ∧ y * width + x < row * width + left + count
      ↔ y = row ∧ left ≤ x ∧ x < left + count := by
  rcases Nat.eq_zero_or_pos count with rfl | hpos
  · omega
  have hfit' := hfit hpos
  -- a row further up or down is a whole width away
  rcases Nat.lt_trichotomy y row with h | rfl | h
  · have hmul : (y + 1) * width ≤ row * width := Nat.mul_le_mul_right width h
    rw [Nat.succ_mul] at hmul
    omega
  · omega
  · have hmul : (row + 1) * width ≤ y * width := Nat.mul_le_mul_right width h
    rw [Nat.succ_mul] at hmul
    omega

/-- The pixels of a target after `rows` runs of `columns` pixels, each a row below the one before,
from column `left` and row `top` on. -/
def copyRows (target : Array Pixel) (width left top : ℕ) (source : Array Pixel)
    (sourceWidth sourceLeft sourceTop columns rows : ℕ) : Array Pixel :=
  (List.range rows).foldl
    (fun a j => copyRun a ((top + j) * width + left) source
      ((sourceTop + j) * sourceWidth + sourceLeft) columns)
    target

/-- One more run. -/
theorem copyRows_succ (target : Array Pixel) (width left top : ℕ) (source : Array Pixel)
    (sourceWidth sourceLeft sourceTop columns rows : ℕ) :
    copyRows target width left top source sourceWidth sourceLeft sourceTop columns (rows + 1)
      = copyRun (copyRows target width left top source sourceWidth sourceLeft sourceTop columns rows)
        ((top + rows) * width + left) source ((sourceTop + rows) * sourceWidth + sourceLeft)
        columns := by
  unfold copyRows
  rw [List.range_succ, List.foldl_append]
  rfl

/-- Copying rows keeps the number of pixels. -/
theorem size_copyRows (target : Array Pixel) (width left top : ℕ) (source : Array Pixel)
    (sourceWidth sourceLeft sourceTop columns rows : ℕ) :
    (copyRows target width left top source sourceWidth sourceLeft sourceTop columns rows).size
      = target.size := by
  induction rows with
  | zero => rfl
  | succ rows ih => rw [copyRows_succ, size_copyRun, ih]

/-- A place after rows have been copied: within the rows and columns it holds the source's pixel. -/
theorem getElem?_copyRows {target source : Array Pixel}
    {width left top sourceWidth sourceLeft sourceTop columns rows x y : ℕ} (hx : x < width)
    (hplace : y * width + x < target.size) (hfit : 0 < columns → left + columns ≤ width)
    (hsource : ∀ j < rows, 0 < columns →
      (sourceTop + j) * sourceWidth + sourceLeft + columns ≤ source.size) :
    (copyRows target width left top source sourceWidth sourceLeft sourceTop columns rows)[
        y * width + x]?
      = if (top ≤ y ∧ y < top + rows) ∧ left ≤ x ∧ x < left + columns
        then source[(sourceTop + (y - top)) * sourceWidth + (sourceLeft + (x - left))]?
        else target[y * width + x]? := by
  induction rows with
  | zero =>
    rw [if_neg (by omega)]
    rfl
  | succ rows ih =>
    rw [copyRows_succ, getElem?_copyRun _ _ _ _ (hsource rows (Nat.lt_succ_self rows))
      (by rw [size_copyRows]; exact hplace), ih fun j hj => hsource j (Nat.lt_succ_of_lt hj)]
    have hrun := mem_run_iff (top + rows) y hx hfit
    by_cases hhere : y = top + rows ∧ left ≤ x ∧ x < left + columns
    · -- the last run is the one that the place lies in
      obtain ⟨rfl, hcolumn⟩ := hhere
      rw [if_pos (hrun.2 ⟨rfl, hcolumn⟩), if_pos (by omega)]
      congr 1
      rw [Nat.add_sub_cancel_left]
      omega
    · rw [if_neg fun h => hhere (hrun.1 h)]
      by_cases hin : (top ≤ y ∧ y < top + rows) ∧ left ≤ x ∧ x < left + columns
      · rw [if_pos hin, if_pos (by omega)]
      · rw [if_neg hin, if_neg (by omega)]

/-! ## Painting -/

/-- The rows and columns that painting copies. -/
theorem blitPixels_eq (dest source : Raster) (x y : ℤ) :
    blitPixels dest source x y
      = copyRows dest.pixels dest.width x.toNat y.toNat source.pixels source.width (-x).toNat
        (-y).toNat (overlap x source.width dest.width).2 (overlap y source.height dest.height).2 := by
  have hleft : (x + ((-x).toNat : ℤ)).toNat = x.toNat := by omega
  have hrow : ∀ j : ℕ, (y + ((-y).toNat : ℤ) + (j : ℤ)).toNat = y.toNat + j := by
    intro j
    omega
  unfold blitPixels copyRows
  dsimp only [overlap]
  simp only [hleft, hrow]

/-- The pixel at a place after painting: the source's where the source covers the place, and the
destination's elsewhere. -/
theorem pixel?_blit (dest source : Raster) (left top : ℤ) {x y : ℕ} (hx : x < dest.width)
    (hy : y < dest.height) :
    (dest.blit source left top).pixel? x y
      = if (left ≤ x ∧ x < left + source.width) ∧ top ≤ y ∧ y < top + source.height
        then (source.convert dest.format).pixel? (x - left).toNat (y - top).toNat
        else dest.pixel? x y := by
  have hwidth : (source.convert dest.format).width = source.width := width_convert _ _
  have hheight : (source.convert dest.format).height = source.height := height_convert _ _
  have hsize := (source.convert dest.format).size_pixels
  rw [hwidth, hheight] at hsize
  have hplace : y * dest.width + x < dest.pixels.size := by
    rw [dest.size_pixels]
    exact index_lt hx hy
  have hpixel : (dest.blit source left top).pixel? x y
      = (blitPixels dest (source.convert dest.format) left top)[y * dest.width + x]? :=
    if_pos ⟨hx, hy⟩
  have hfit : 0 < (overlap left source.width dest.width).2 →
      left.toNat + (overlap left source.width dest.width).2 ≤ dest.width := by
    dsimp only [overlap]
    omega
  have hsource : ∀ j < (overlap top source.height dest.height).2,
      0 < (overlap left source.width dest.width).2 →
      ((-top).toNat + j) * source.width + (-left).toNat + (overlap left source.width dest.width).2
        ≤ (source.convert dest.format).pixels.size := by
    intro j hj hcolumns
    dsimp only [overlap] at hj hcolumns ⊢
    have hrow : ((-top).toNat + j + 1) * source.width ≤ source.height * source.width :=
      Nat.mul_le_mul_right _ (by omega)
    rw [Nat.succ_mul] at hrow
    rw [hsize, Nat.mul_comm source.width]
    omega
  rw [hpixel, blitPixels_eq, hwidth, hheight, getElem?_copyRows hx hplace hfit hsource]
  by_cases hin : (left ≤ x ∧ x < left + source.width) ∧ top ≤ y ∧ y < top + source.height
  · have hcolumn : (-left).toNat + (x - left.toNat) = (x - left).toNat := by omega
    have hrow : (-top).toNat + (y - top.toNat) = (y - top).toNat := by omega
    have hinside : (x - left).toNat < source.width ∧ (y - top).toNat < source.height := by omega
    rw [if_pos hin, if_pos (by dsimp only [overlap]; omega), hcolumn, hrow]
    unfold pixel?
    rw [hwidth, hheight, if_pos hinside]
  · rw [if_neg hin, if_neg (by dsimp only [overlap]; omega)]
    exact (if_pos ⟨hx, hy⟩).symm

/-- Two sources lie side by side or one above the other. -/
def Apart (source other : Raster) (left top left' top' : ℤ) : Prop :=
  left + source.width ≤ left' ∨ left' + other.width ≤ left
    ∨ top + source.height ≤ top' ∨ top' + other.height ≤ top

/-- Sources that lie apart may be painted in either order. -/
theorem blit_comm {source other : Raster} {left top left' top' : ℤ}
    (h : Apart source other left top left' top') (dest : Raster) :
    (dest.blit source left top).blit other left' top'
      = (dest.blit other left' top').blit source left top := by
  refine ext_pixel? rfl rfl rfl fun x hx y hy => ?_
  change x < dest.width at hx
  change y < dest.height at hy
  rw [pixel?_blit (dest.blit source left top) other left' top' hx hy,
    pixel?_blit (dest.blit other left' top') source left top hx hy,
    pixel?_blit dest source left top hx hy, pixel?_blit dest other left' top' hx hy]
  -- no place is covered by both
  by_cases hsource : (left ≤ x ∧ x < left + source.width) ∧ top ≤ y ∧ y < top + source.height
  · have hother : ¬ ((left' ≤ x ∧ x < left' + other.width) ∧ top' ≤ y ∧ y < top' + other.height) := by
      unfold Apart at h
      omega
    rw [if_neg hother, if_pos hsource, if_pos hsource]
    rfl
  · rw [if_neg hsource, if_neg hsource]
    rfl

end Orthomosaic.Raster
