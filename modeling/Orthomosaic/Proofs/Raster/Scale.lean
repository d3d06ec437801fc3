import Orthomosaic.Proofs.Raster.Blit
import Orthomosaic.Raster.Scale

/-!
# What scaling does to a pixel

A raster is scaled in two passes over flat arrays, down its columns and then along its rows. Here the
passes are read as a rule for one sample (`Raster.pixel?_scale`): it is the mean, by the filter along
the row, of the means by the filter down the columns. What the filter weighs is left to binary32; that
it never reaches over an edge of the old raster is known without it (`Taps.first_add_length_le`).
-/

namespace Orthomosaic

namespace Taps

/-- A fold that counts places looks at the places counted only. -/
theorem foldl_places_congr {α β γ : Type} (step : β → γ → α → β) {f g : ℕ → γ} {xs : List α} {first : ℕ}
    (h : ∀ i, first ≤ i → i < first + xs.length → f i = g i) (acc : β) :
    (xs.foldl (fun (s : β × ℕ) x => (step s.1 (f s.2) x, s.2 + 1)) (acc, first)).1
      = (xs.foldl (fun (s : β × ℕ) x => (step s.1 (g s.2) x, s.2 + 1)) (acc, first)).1 := by
  induction xs generalizing first acc with
  | nil => rfl
  | cons x xs ih =>
    rw [List.length_cons] at h
    rw [List.foldl_cons, List.foldl_cons]
    dsimp only
    rw [h first le_rfl (by omega)]
    exact ih (fun i h0 h1 => h i (by omega) (by omega)) _

theorem sum_congr {t : Taps} {f g : ℕ → UInt32}
    (h : ∀ i, t.first ≤ i → i < t.first + t.weights.length → f i = g i) : t.sum f = t.sum g :=
  foldl_places_congr (fun acc sample w => Real32.add acc (Real32.mul sample w)) h 0

/-- The tapped places are places of the old raster. -/
theorem first_add_length_le {n : ℕ} (hn : 0 < n) (m i : ℕ) :
    (ofPlace n m i).first + (ofPlace n m i).weights.length ≤ n := by
  unfold ofPlace
  simp only [List.length_map, List.length_range]
  omega

end Taps

namespace Raster

/-- A sample of a raster, 0 where there is none. -/
def sampleAt (r : Raster) (x y k : ℕ) : UInt32 :=
  ((r.pixel? x y).getD []).getD k 0

/-- The mean of a column of samples that belongs to a new row. -/
def columnMean (r : Raster) (height x y k : ℕ) : UInt32 :=
  (Taps.ofPlace r.height height y).sum fun y' => r.format.depth.toNumber (r.sampleAt x y' k)

/-- The pixel of a scaled raster: in each channel the mean of the means of the columns. -/
def meanPixel (r : Raster) (width height x y : ℕ) : Pixel :=
  (List.range r.format.sampleCount).map fun k => r.format.depth.ofNumber
    ((Taps.ofPlace r.width width x).sum fun x' => r.columnMean height x' y k)

variable {r : Raster} {width height x y k : ℕ}

theorem scale_of_size (hwidth : r.width = width) (hheight : r.height = height) :
    r.scale width height = r :=
  if_pos ⟨hwidth, hheight⟩

/-- The numbers that the first pass reads are the samples. -/
theorem getD_map_toNumber (hx : x < r.width) (hy : y < r.height) (hk : k < r.format.sampleCount) :
    ((r.pixels.map fun p => p.map r.format.depth.toNumber).getD (y * r.width + x) []).getD k 0
      = r.format.depth.toNumber (r.sampleAt x y k) := by
  obtain ⟨p, hp⟩ := r.exists_pixel? hx hy
  have hlength : k < p.length := hk.trans_eq (length_of_pixel? hp).symm
  unfold sampleAt
  simp [Array.getD_eq_getD_getElem?, getElem?_of_pixel? hp, hp, hlength]

/-- What the first pass leaves at a place. -/
theorem getD_scaleColumns (hheight : 0 < r.height) (hx : x < r.width) (hy : y < height)
    (hk : k < r.format.sampleCount) :
    (r.scaleColumns height).getD ((y * r.width + x) * r.format.sampleCount + k) 0
      = r.columnMean height x y k := by
  have hplace : (y * r.width + x) * r.format.sampleCount + k
      < height * r.width * r.format.sampleCount := by
    rw [Nat.mul_comm (height * r.width), Nat.mul_comm height]
    exact index_lt hk (index_lt hx hy)
  unfold scaleColumns columnMean
  dsimp only
  rw [Array.getD_eq_getD_getElem?, Array.getElem?_ofFn, dif_pos hplace, Option.getD_some]
  dsimp only
  rw [index_div hk, index_mod hk, index_div hx, index_mod hx, Array.getElem?_ofFn, dif_pos hy]
  dsimp only
  have hbound := Taps.first_add_length_le hheight height y
  exact Taps.sum_congr fun y' _ hy' => getD_map_toNumber hx (by omega) hk

/-- A raster of another size is scaled pixel by pixel. -/
theorem pixel?_scale (hsize : ¬ (r.width = width ∧ r.height = height)) (hwidth : 0 < r.width)
    (hheight : 0 < r.height) (hx : x < width) (hy : y < height) :
    (r.scale width height).pixel? x y = some (r.meanPixel width height x y) := by
  have hne : ¬ (r.width = 0 ∨ r.height = 0) := by omega
  have hbound := Taps.first_add_length_le hwidth width x
  unfold scale resample meanPixel
  rw [if_neg hsize, if_neg hne]
  dsimp only
  rw [pixel?_tabulate, if_pos ⟨hx, hy⟩, Option.some_inj]
  refine List.map_congr_left fun k hk => ?_
  rw [Array.getElem?_ofFn, dif_pos hx]
  dsimp only
  rw [Taps.sum_congr fun x' _ hx' =>
    getD_scaleColumns hheight (by omega) hy (List.mem_range.1 hk)]

/-- A raster without pixels is scaled to zero ones. -/
theorem pixel?_scale_of_empty (hsize : ¬ (r.width = width ∧ r.height = height))
    (hempty : r.width = 0 ∨ r.height = 0) (hx : x < width) (hy : y < height) :
    (r.scale width height).pixel? x y = some (zeroPixel r.format) := by
  unfold scale resample
  rw [if_neg hsize, if_pos hempty, pixel?_zero, if_pos ⟨hx, hy⟩]

end Raster

end Orthomosaic
