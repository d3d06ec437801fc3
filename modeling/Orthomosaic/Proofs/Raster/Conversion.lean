import Mathlib.Data.List.GetD
import Orthomosaic.Proofs.Raster.Blit

/-!
# What conversion does to a pixel

A converted raster has every pixel converted on its own (`Raster.pixel?_convert`), and a pixel in its own
format stays as it is (`PixelFormat.convert_self`).
-/

namespace Orthomosaic

namespace PixelFormat

theorem map_getD_range {n : ℕ} {p : Pixel} (h : n ≤ p.length) :
    (List.range n).map (fun k => p.getD k 0) = p.take n := by
  refine List.ext_getElem (by simp [h]) fun i hi hi' => ?_
  have hlt : i < p.length := by
    rw [List.length_take] at hi'
    omega
  simp [List.getElem_take, hlt]

/-- A pixel in its own format stays as it is. -/
theorem convert_self {f : PixelFormat} {p : Pixel} (h : p.length = f.sampleCount) :
    f.convert f p = p := by
  have hrecode : Depth.recode f.depth f.depth = id := by
    funext w
    cases f <;> rfl
  have hcount : p.length = f.channels.colors + if f.channels.hasAlpha then 1 else 0 := h
  unfold convert
  simp only [hrecode, id_eq, if_true]
  rw [map_getD_range (by omega)]
  cases halpha : f.channels.hasAlpha with
  | false =>
    rw [halpha] at hcount
    simp at hcount
    simp [← hcount]
  | true =>
    rw [halpha] at hcount
    simp at hcount
    have hlt : f.channels.colors < p.length := by omega
    simp only [if_true, List.getD_eq_getElem _ _ hlt]
    rw [List.take_append_getElem hlt, List.take_of_length_le (by omega)]

end PixelFormat

namespace Raster

variable {r : Raster} {f : PixelFormat} {x y : ℕ} {p : Pixel}

/-- A converted raster has every pixel converted. -/
theorem pixel?_convert (h : r.pixel? x y = some p) :
    (r.convert f).pixel? x y = some (r.format.convert f p) := by
  unfold convert
  split_ifs with hformat
  · rw [h, ← hformat, PixelFormat.convert_self (length_of_pixel? h)]
  · unfold pixel? at h ⊢
    split_ifs at h with hplace
    rw [if_pos hplace, Array.getElem?_map, h]
    rfl

end Raster

end Orthomosaic
