import Mathlib.Data.List.Range
import Orthomosaic.Proofs.Bucket.Sibling
import Orthomosaic.Proofs.Mosaic.Resolve

/-!
# Runs of cells

Seen from a cell of the globe, the steps that the two loops of `BucketGrid.resolve` take lead along
its row and then through the rows north of it, so the lists of cells that they add are runs:
`cellRun` lists the cells of one row from a column eastward, around the globe if need be, and
`cellRows` does so for rows that follow one another.
-/

namespace Orthomosaic.BucketGrid

open Scalar

/-- Cells of one row, from a column eastward. -/
def cellRun (row column : ℤ) (k : ℕ) : List Bucket :=
  (List.range k).map fun c : ℕ => Bucket.ofCell row (column + c)

/-- Cells of some rows, from a row northward and from a column eastward. -/
def cellRows (row column : ℤ) (columns k : ℕ) : List Bucket :=
  (List.range k).flatMap fun r : ℕ => cellRun (row + r) column columns

/-! ## Lists of cells -/

/-- A run begins with the cell in its first column. -/
theorem cellRun_succ (row column : ℤ) (k : ℕ) :
    cellRun row column (k + 1) = Bucket.ofCell row column :: cellRun row (column + 1) k := by
  unfold cellRun
  rw [List.range_succ_eq_map, List.map_cons, List.map_map]
  have hfirst : column + ((0 : ℕ) : ℤ) = column := by simp
  have hrest : ((fun c : ℕ => Bucket.ofCell row (column + c)) ∘ Nat.succ)
      = fun c : ℕ => Bucket.ofCell row (column + 1 + c) := by
    funext c
    change Bucket.ofCell row (column + ((c + 1 : ℕ) : ℤ)) = _
    congr 1
    push_cast
    ring
  rw [hfirst, hrest]

/-- A run ends with the cell in its last column. -/
theorem cellRun_succ_last (row column : ℤ) (k : ℕ) :
    cellRun row column (k + 1) = cellRun row column k ++ [Bucket.ofCell row (column + k)] := by
  unfold cellRun
  rw [List.range_succ, List.map_append]
  rfl

/-- A run is one run followed by another. -/
theorem cellRun_add (row column : ℤ) (j k : ℕ) :
    cellRun row column (j + k) = cellRun row column j ++ cellRun row (column + j) k := by
  induction k with
  | zero => rw [Nat.add_zero, cellRun.eq_1 row (column + j) 0, List.range_zero, List.map_nil,
      List.append_nil]
  | succ k ih =>
    rw [← Nat.add_assoc, cellRun_succ_last, ih, cellRun_succ_last, List.append_assoc]
    push_cast
    rw [add_assoc]

/-- The cells of a run. -/
theorem mem_cellRun {row column : ℤ} {k : ℕ} {cell : Bucket} :
    cell ∈ cellRun row column k ↔ ∃ c < k, Bucket.ofCell row (column + c) = cell := by
  unfold cellRun
  rw [List.mem_map]
  constructor
  · rintro ⟨c, hc, rfl⟩
    exact ⟨c, List.mem_range.1 hc, rfl⟩
  · rintro ⟨c, hc, rfl⟩
    exact ⟨c, List.mem_range.2 hc, rfl⟩

@[simp] theorem length_cellRun (row column : ℤ) (k : ℕ) : (cellRun row column k).length = k := by
  rw [cellRun, List.length_map, List.length_range]

/-- Rows begin with the southernmost one. -/
theorem cellRows_succ (row column : ℤ) (columns k : ℕ) :
    cellRows row column columns (k + 1)
      = cellRun row column columns ++ cellRows (row + 1) column columns k := by
  unfold cellRows
  rw [List.range_succ_eq_map, List.flatMap_cons, List.flatMap_map]
  have hfirst : row + ((0 : ℕ) : ℤ) = row := by simp
  have hrest : (fun r : ℕ => cellRun (row + ((r.succ : ℕ) : ℤ)) column columns)
      = fun r : ℕ => cellRun (row + 1 + r) column columns := by
    funext r
    congr 1
    push_cast
    ring
  rw [hfirst, hrest]

/-- Rows end with the northernmost one. -/
theorem cellRows_succ_last (row column : ℤ) (columns k : ℕ) :
    cellRows row column columns (k + 1)
      = cellRows row column columns k ++ cellRun (row + k) column columns := by
  unfold cellRows
  rw [List.range_succ, List.flatMap_append, List.flatMap_singleton]

/-- Rows begin with the first cell, the rest of its row, and the rows north of that. -/
theorem cellRows_eq_cons (row column : ℤ) {columns k : ℕ} (hcolumns : 0 < columns) (hk : 0 < k) :
    cellRows row column columns k
      = Bucket.ofCell row column :: cellRun row (column + 1) (columns - 1)
        ++ cellRows (row + 1) column columns (k - 1) := by
  obtain ⟨c, rfl⟩ := Nat.exists_eq_add_of_le' hcolumns
  obtain ⟨r, rfl⟩ := Nat.exists_eq_add_of_le' hk
  rw [cellRows_succ, cellRun_succ, Nat.add_sub_cancel, Nat.add_sub_cancel]

/-- Rows have as many cells as their number and that of the columns say. -/
@[simp] theorem length_cellRows (row column : ℤ) (columns k : ℕ) :
    (cellRows row column columns k).length = k * columns := by
  induction k with
  | zero => rw [cellRows, List.range_zero, List.flatMap_nil, List.length_nil, Nat.zero_mul]
  | succ k ih => rw [cellRows_succ_last, List.length_append, ih, length_cellRun, Nat.succ_mul]

/-- The cells of some rows. -/
theorem mem_cellRows {row column : ℤ} {columns k : ℕ} {cell : Bucket} :
    cell ∈ cellRows row column columns k
      ↔ ∃ r < k, ∃ c < columns, Bucket.ofCell (row + r) (column + c) = cell := by
  unfold cellRows
  rw [List.mem_flatMap]
  constructor
  · rintro ⟨r, hr, hcell⟩
    exact ⟨r, List.mem_range.1 hr, mem_cellRun.1 hcell⟩
  · rintro ⟨r, hr, hcell⟩
    exact ⟨r, List.mem_range.2 hr, mem_cellRun.2 hcell⟩

/-- The cell in a row and a column, by its place in the list. -/
theorem getElem?_cellRows (row column : ℤ) {columns k r c : ℕ} (hr : r < k) (hc : c < columns) :
    (cellRows row column columns k)[r * columns + c]?
      = some (Bucket.ofCell (row + r) (column + c)) := by
  induction k generalizing row r with
  | zero => omega
  | succ k ih =>
    -- a place in the first row, or one a row's length beyond it
    rw [cellRows_succ]
    cases r with
    | zero =>
      rw [Nat.zero_mul, Nat.zero_add, List.getElem?_append_left (by rw [length_cellRun]; exact hc)]
      unfold cellRun
      rw [List.getElem?_map, List.getElem?_range hc]
      simp
    | succ r =>
      have hlen : (cellRun row column columns).length ≤ (r + 1) * columns + c := by
        rw [length_cellRun, Nat.succ_mul]
        omega
      have hplace : (r + 1) * columns + c - (cellRun row column columns).length
          = r * columns + c := by
        rw [length_cellRun, Nat.succ_mul]
        omega
      rw [List.getElem?_append_right hlen, hplace, ih (row + 1) (Nat.lt_of_succ_lt_succ hr)]
      congr 2
      push_cast
      ring

/-! ## The cells that the loops list -/

/-- Steps east run along the row. -/
theorem eastOf_ofCell {row : ℤ} (h0 : 0 ≤ row) (h1 : row < 1440) (column : ℤ) (k : ℕ) :
    eastOf ℚ (Bucket.ofCell row column) k = cellRun row (column + 1) k := by
  induction k generalizing column with
  | zero => rfl
  | succ k ih => rw [eastOf, Bucket.sibling_east h0 h1, ih, cellRun_succ]

/-- The cells of a row. -/
theorem rowCells_ofCell {row : ℤ} (h0 : 0 ≤ row) (h1 : row < 1440) (column : ℤ) (columns : ℕ) :
    rowCells ℚ columns (Bucket.ofCell row column) = cellRun row column columns := by
  unfold rowCells cellRun
  refine List.map_congr_left fun c _ => ?_
  exact Bucket.sibling_east h0 h1 column c

/-- A step to a row of the same width keeps the column. -/
theorem sibling_north {row : ℤ} (h0 : 0 ≤ row) (h1 : row + 1 < 1440)
    (hunits : rowUnits (row + 1) = rowUnits row) (column : ℤ) :
    (Bucket.ofCell row column).sibling ℚ 0 1 = Bucket.ofCell (row + 1) column := by
  have hrow : Bucket.clampRow (row + 1) = row + 1 := Bucket.clampRow_of_mem (by omega) h1
  rw [Bucket.sibling_ofCell column 0 (by rw [hrow, hunits]), hrow, add_zero]

/-- Steps north run through rows of one width. -/
theorem northOf_ofCell {row : ℤ} (h0 : 0 ≤ row) (column : ℤ) (columns : ℕ) {k : ℕ}
    (hrows : ∀ j < k, row + j + 1 < 1440 ∧ rowUnits (row + j + 1) = rowUnits row) :
    northOf ℚ columns (Bucket.ofCell row column) k = cellRows (row + 1) column columns k := by
  induction k generalizing row with
  | zero => rfl
  | succ k ih =>
    obtain ⟨hlt, hunits⟩ := hrows 0 (Nat.succ_pos k)
    rw [Nat.cast_zero, add_zero] at hlt hunits
    have hnext : ∀ j < k, row + 1 + j + 1 < 1440
        ∧ rowUnits (row + 1 + j + 1) = rowUnits (row + 1) := by
      intro j hj
      have h := hrows (j + 1) (Nat.succ_lt_succ hj)
      push_cast at h
      rw [hunits, show row + 1 + (j : ℤ) = row + ((j : ℤ) + 1) by ring]
      exact h
    rw [northOf, sibling_north h0 hlt hunits, rowCells_ofCell (by omega) hlt,
      ih (by omega) hnext, cellRows_succ]

/-- The bucket that the last of these steps leads to. -/
theorem startNorth_ofCell {row : ℤ} (h0 : 0 ≤ row) (column : ℤ) {k : ℕ}
    (hrows : ∀ j < k, row + j + 1 < 1440 ∧ rowUnits (row + j + 1) = rowUnits row) :
    startNorth ℚ (Bucket.ofCell row column) k = Bucket.ofCell (row + k) column := by
  induction k with
  | zero =>
    rw [Nat.cast_zero, add_zero]
    rfl
  | succ k ih =>
    have hbefore : ∀ j < k, row + j + 1 < 1440 ∧ rowUnits (row + j + 1) = rowUnits row :=
      fun j hj => hrows j (Nat.lt_succ_of_lt hj)
    obtain ⟨hlt, hunits⟩ := hrows k (Nat.lt_succ_self k)
    -- widths are compared with the first row, but a step needs that of the row it leaves
    have hsame : rowUnits (row + k + 1) = rowUnits (row + k) := by
      rw [hunits]
      cases k with
      | zero => rw [Nat.cast_zero, add_zero]
      | succ k =>
        rw [Nat.cast_succ, ← add_assoc]
        exact (hbefore k (Nat.lt_succ_self k)).2.symm
    have hstep : startNorth ℚ (Bucket.ofCell row column) (k + 1)
        = (startNorth ℚ (Bucket.ofCell row column) k).sibling ℚ 0 1 :=
      Function.iterate_succ_apply' _ k _
    rw [hstep, ih hbefore, sibling_north (by omega) hlt hsame, Nat.cast_succ, add_assoc]

end Orthomosaic.BucketGrid
