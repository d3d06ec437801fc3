import Mathlib.Tactic.LinearCombination
import Orthomosaic.Proofs.Bounds.Near
import Orthomosaic.Proofs.Bucket.Degree

/-!
# The cells of the globe

The buckets form rows, and each row is a ring of cells of one width. `Bucket.ofCell` names a bucket
by its row, counted from the south pole, and its column, counted eastward from -180 and on around the
globe; every edge is a whole number of eighths of a degree, so the arithmetic is that of integers.
`Bucket.bounds_ofCell` gives the rectangle of a cell.
-/

namespace Orthomosaic

open Scalar

/-- The western edge of a cell, in eighths of a degree. -/
def cellEighth (row column : ℤ) : ℤ :=
  column % rowColumns row * rowUnits row - 1440

/-- The western edge of a cell, in `[-180, 180)`. -/
def cellWest (row column : ℤ) : ℚ :=
  (cellEighth row column : ℚ) / 8

/-- The width of the cells of a row. -/
def rowWidth (row : ℤ) : ℚ :=
  (rowUnits row : ℚ) / 8

/-- The southern edge of a row. -/
def rowSouth (row : ℤ) : ℚ :=
  (row : ℚ) / 8 - 90

/-! ## Edges -/

theorem rowColumns_congr {row row' : ℤ} (h : rowUnits row = rowUnits row') :
    rowColumns row = rowColumns row' := by
  unfold rowColumns
  rw [h]

theorem rowWidth_congr {row row' : ℤ} (h : rowUnits row = rowUnits row') :
    rowWidth row = rowWidth row' := by
  unfold rowWidth
  rw [h]

/-- Rows with cells of one width have cells of as many eighths of a degree. -/
theorem rowWidth_eq_iff {row row' : ℤ} :
    rowWidth row = rowWidth row' ↔ rowUnits row = rowUnits row' := by
  refine ⟨fun h => ?_, rowWidth_congr⟩
  unfold rowWidth at h
  have : (rowUnits row : ℚ) = rowUnits row' := by linarith
  exact_mod_cast this

/-- A cell lies between -180 and 180 degrees, both edges included. -/
theorem cellEighth_mem (row column : ℤ) :
    -1440 ≤ cellEighth row column ∧ cellEighth row column + rowUnits row ≤ 1440 := by
  have hturn := rowColumns_mul_rowUnits row
  have hpos := rowUnits_pos row
  have hn : 0 < rowColumns row := by linarith [le_rowColumns row]
  have hc0 := Int.emod_nonneg column hn.ne'
  have hc1 := Int.emod_lt_of_pos column hn
  unfold cellEighth
  constructor
  · nlinarith
  · nlinarith

/-- What a western edge has beyond a whole degree is a whole number of widths. -/
theorem cellEighth_emod (row column : ℤ) :
    cellEighth row column % 8 / rowUnits row * rowUnits row = cellEighth row column % 8 := by
  unfold cellEighth
  generalize column % rowColumns row = c
  rcases rowUnits_cases row with h | h | h | h | h | h | h <;> rw [h] <;> omega

/-- The western edge of a cell is as many widths east of -180 as its column says, without whole
turns. -/
theorem cellWest_eq (row column : ℤ) :
    cellWest row column = -180 + (column % rowColumns row : ℤ) * rowWidth row := by
  unfold cellWest cellEighth rowWidth
  push_cast
  ring

/-- The western edge of a cell is not below -180. -/
theorem le_cellWest (row column : ℤ) : -180 ≤ cellWest row column := by
  have h : ((-1440 : ℤ) : ℚ) ≤ cellEighth row column := by
    exact_mod_cast (cellEighth_mem row column).1
  push_cast at h
  unfold cellWest
  linarith

/-- The eastern edge of a cell is not above 180. -/
theorem cellWest_add_rowWidth_le (row column : ℤ) :
    cellWest row column + rowWidth row ≤ 180 := by
  have h : ((cellEighth row column + rowUnits row : ℤ) : ℚ) ≤ (1440 : ℤ) := by
    exact_mod_cast (cellEighth_mem row column).2
  push_cast at h
  unfold cellWest rowWidth
  linarith

theorem le_rowWidth (row : ℤ) : 1 / 8 ≤ rowWidth row := by
  have h : (1 : ℚ) ≤ rowUnits row := by exact_mod_cast rowUnits_pos row
  unfold rowWidth
  linarith

theorem rowWidth_le (row : ℤ) : rowWidth row ≤ 12 := by
  have h : (rowUnits row : ℚ) ≤ 96 := by exact_mod_cast rowUnits_le row
  unfold rowWidth
  linarith

theorem cellWest_lt (row column : ℤ) : cellWest row column < 180 := by
  linarith [cellWest_add_rowWidth_le row column, le_rowWidth row]

/-- The cells of a row go once around the globe. -/
theorem rowColumns_mul_rowWidth (row : ℤ) : (rowColumns row : ℚ) * rowWidth row = 360 := by
  have h : (rowColumns row : ℚ) * rowUnits row = 2880 := by
    exact_mod_cast rowColumns_mul_rowUnits row
  unfold rowWidth
  linarith

/-- The western edge of a cell, counted from -180 without regard to whole turns. -/
theorem sameMeridian_cellWest (row column : ℤ) :
    SameMeridian (-180 + column * rowWidth row) (cellWest row column) := by
  refine ⟨-(column / rowColumns row), ?_⟩
  have hdiv : column % rowColumns row
      = column - rowColumns row * (column / rowColumns row) := Int.emod_def _ _
  have hcast : (cellEighth row column : ℚ)
      = (column - rowColumns row * (column / rowColumns row : ℤ)) * rowUnits row - 1440 := by
    unfold cellEighth
    rw [hdiv]
    push_cast
    ring
  have hturn := rowColumns_mul_rowWidth row
  unfold cellWest rowWidth at *
  rw [hcast]
  push_cast
  linear_combination (-((column / rowColumns row : ℤ) : ℚ)) * hturn

/-- The western edge of a cell some columns further east. -/
theorem sameMeridian_cellWest_add (row column c : ℤ) :
    SameMeridian (cellWest row column + c * rowWidth row) (cellWest row (column + c)) := by
  have h := (sameMeridian_cellWest row column).symm.add_right (c * rowWidth row)
  have hsum : -180 + (column : ℚ) * rowWidth row + c * rowWidth row
      = -180 + ((column + c : ℤ) : ℚ) * rowWidth row := by
    push_cast
    ring
  rw [hsum] at h
  exact h.trans (sameMeridian_cellWest row (column + c))

theorem rowSouth_succ (row : ℤ) : rowSouth (row + 1) = rowSouth row + 1 / 8 := by
  unfold rowSouth
  push_cast
  ring

/-- The row of a latitude inside a row. -/
theorem rowOf_eq {row : ℤ} {lat : ℚ} (h0 : rowSouth row ≤ lat) (h1 : lat < rowSouth (row + 1)) :
    rowOf lat = row := by
  unfold rowSouth at h0 h1
  push_cast at h1
  rw [rowOf, Int.floor_eq_iff]
  constructor <;> linarith

/-! ## The bucket of a cell -/

namespace Bucket

/-- The bucket in a row and a column. -/
def ofCell (row column : ℤ) : Bucket where
  lon := cellEighth row column / 8
  lat := row / 8 - 90
  x := overEights (cellEighth row column % 8 / rowUnits row).toNat
  y := overEights (row % 8).toNat

theorem val_overEights {n : ℕ} (h : n < 8) : (overEights n : ℕ) = n :=
  Nat.mod_eq_of_lt h

/-- The column within the degree of a cell. -/
theorem x_ofCell (row column : ℤ) :
    (((ofCell row column).x : ℕ) : ℤ) = cellEighth row column % 8 / rowUnits row := by
  have hpos := rowUnits_pos row
  have h0 : 0 ≤ cellEighth row column % 8 / rowUnits row :=
    Int.ediv_nonneg (by omega) hpos.le
  have h8 : cellEighth row column % 8 / rowUnits row < 8 :=
    (Int.ediv_le_self _ (by omega)).trans_lt (by omega)
  change ((overEights _ : ℕ) : ℤ) = _
  rw [val_overEights (by omega)]
  omega

theorem y_ofCell (row column : ℤ) : (((ofCell row column).y : ℕ) : ℤ) = row % 8 := by
  change ((overEights _ : ℕ) : ℤ) = _
  rw [val_overEights (by omega)]
  omega

theorem bucketHeight_eq : (bucketHeight : ℚ) = 1 / 8 := by
  unfold bucketHeight
  norm_num

/-- The latitude of the centre of a bucket. -/
theorem centerLat_eq (b : Bucket) :
    (b.centerLat : ℚ) = b.lat + ((b.y : ℕ) : ℚ) / 8 + 1 / 16 := by
  unfold centerLat
  rw [bucketHeight_eq, ofNat_eq_cast, literal_eq, literal_eq]
  norm_num

/-- The longitude of the centre of a bucket. -/
theorem centerLon_eq (b : Bucket) :
    (b.centerLon : ℚ)
      = if 1 ≤ (b.width : ℚ) then (b.lon : ℚ) + b.width / 2
        else (b.lon : ℚ) + ((b.x : ℕ) : ℚ) * b.width + b.width / 2 := by
  unfold centerLon
  rw [ofNat_eq_cast]
  rfl

/-- The latitude of the centre of a cell. -/
theorem centerLat_ofCell (row column : ℤ) :
    ((ofCell row column).centerLat : ℚ) = rowSouth row + 1 / 16 := by
  have hy : (((ofCell row column).y : ℕ) : ℚ) = ((row % 8 : ℤ) : ℚ) := by
    exact_mod_cast y_ofCell row column
  have hlat : (((ofCell row column).lat : ℤ) : ℚ) = ((row / 8 - 90 : ℤ) : ℚ) := rfl
  have hrow : (row : ℚ) = 8 * ((row / 8 : ℤ) : ℚ) + ((row % 8 : ℤ) : ℚ) := by
    exact_mod_cast (Int.mul_ediv_add_emod row 8).symm
  rw [centerLat_eq, hy, hlat]
  unfold rowSouth
  push_cast
  linarith

/-- The width of a cell is that of its row. -/
theorem width_ofCell (row column : ℤ) : ((ofCell row column).width : ℚ) = rowWidth row := by
  have hsouth : rowSouth row ≤ rowSouth row + 1 / 16 := by linarith
  have hnorth : rowSouth row + 1 / 16 < rowSouth (row + 1) := by linarith [rowSouth_succ row]
  unfold width
  rw [centerLat_ofCell, bucketSpan_eq, rowOf_eq hsouth hnorth]
  rfl

/-- The longitude of the centre of a cell. -/
theorem centerLon_ofCell (row column : ℤ) :
    ((ofCell row column).centerLon : ℚ) = cellWest row column + rowWidth row / 2 := by
  have hsplit : (cellEighth row column : ℚ)
      = 8 * ((cellEighth row column / 8 : ℤ) : ℚ) + ((cellEighth row column % 8 : ℤ) : ℚ) := by
    exact_mod_cast (Int.mul_ediv_add_emod _ 8).symm
  have hlon : (((ofCell row column).lon : ℤ) : ℚ) = ((cellEighth row column / 8 : ℤ) : ℚ) := rfl
  have hx : (((ofCell row column).x : ℕ) : ℚ) * rowUnits row
      = ((cellEighth row column % 8 : ℤ) : ℚ) := by
    have h := x_ofCell row column
    have h' := cellEighth_emod row column
    rw [← h] at h'
    exact_mod_cast h'
  rw [centerLon_eq, width_ofCell, hlon]
  unfold cellWest
  split
  · next hwide =>
    -- a bucket at least a degree wide starts at a whole degree
    have hunits : (8 : ℤ) ≤ rowUnits row := by
      unfold rowWidth at hwide
      have : (8 : ℚ) ≤ rowUnits row := by linarith
      exact_mod_cast this
    have hmod : cellEighth row column % 8 = 0 := by
      unfold cellEighth
      generalize column % rowColumns row = c
      rcases rowUnits_cases row with h | h | h | h | h | h | h <;> rw [h] at hunits ⊢ <;> omega
    rw [hmod] at hsplit
    push_cast at hsplit
    linarith
  · unfold rowWidth
    linarith

/-- The rectangle of a cell. -/
theorem bounds_ofCell (row column : ℤ) :
    ((ofCell row column).bounds : Bounds ℚ)
      = ⟨cellWest row column, rowWidth row, rowSouth row, rowSouth (row + 1)⟩ := by
  have hw := le_rowWidth row
  have hw' := rowWidth_le row
  have hwest : normalizeLon (cellWest row column + rowWidth row / 2 - rowWidth row / 2)
      = cellWest row column := by
    rw [add_sub_cancel_right]
    exact normalizeLon_of_mem (le_cellWest row column) (cellWest_lt row column)
  unfold bounds height
  rw [Bounds.ofCenter_eq, centerLon_ofCell, centerLat_ofCell, width_ofCell, bucketHeight_eq, hwest,
    rowSouth_succ]
  · congr 1 <;> ring
  · rw [width_ofCell]
    linarith
  · rw [width_ofCell]
    linarith
  · rw [bucketHeight_eq]
    norm_num

/-- The rectangle of a cell is well-formed. -/
theorem wellFormed_bounds_ofCell (row column : ℤ) :
    ((ofCell row column).bounds : Bounds ℚ).WellFormed := by
  rw [bounds_ofCell, Bounds.wellFormed_iff]
  have hw := le_rowWidth row
  have hw' := rowWidth_le row
  have hrow := rowSouth_succ row
  exact ⟨le_cellWest row column, cellWest_lt row column, by linarith, by linarith, by linarith⟩

end Bucket

end Orthomosaic
