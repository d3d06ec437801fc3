import Orthomosaic.Proofs.Bucket.Canonical

/-!
# Rows and columns of the globe

Besides its degrees a bucket has a place on the globe: its row, counted from the south pole, and its
column, counted in widths eastward from -180. For the cells of the globe these are the numbers that
`Bucket.ofCell` takes, up to whole turns. A canonical bucket is known by them
(`Bucket.Canonical.eq_of_row_column`), and to be canonical is to be the cell that they name.
-/

namespace Orthomosaic.Bucket

open Scalar

/-- The row of a bucket, counted from the south pole. -/
def row (b : Bucket) : ℤ :=
  8 * (b.lat + 90) + (b.y : ℕ)

/-- The column of a bucket, counted in its widths eastward from -180. -/
def column (b : Bucket) : ℤ :=
  ⌊(b.west + 180) / b.width⌋

/-- How many buckets as wide as this one go around the globe. -/
def columnsAround (b : Bucket) : ℤ :=
  ⌊(360 : ℚ) / b.width⌋

/-! ## Cells -/

/-- The row of a cell. -/
theorem row_ofCell (row column : ℤ) : (ofCell row column).row = row := by
  have hy := y_ofCell row column
  have hlat : (ofCell row column).lat = row / 8 - 90 := rfl
  unfold Bucket.row
  omega

/-- As many cells go around the globe as their row has. -/
theorem columnsAround_ofCell (row column : ℤ) :
    (ofCell row column).columnsAround = rowColumns row := by
  have hw := le_rowWidth row
  unfold columnsAround
  rw [width_ofCell, ← rowColumns_mul_rowWidth row, mul_div_cancel_right₀ _ (by linarith),
    Int.floor_intCast]

/-- The column of a cell, without whole turns. -/
theorem column_ofCell {row : ℤ} (h0 : 0 ≤ row) (h1 : row < 1440) (column : ℤ) :
    (ofCell row column).column = column % rowColumns row := by
  have hw := le_rowWidth row
  unfold Bucket.column
  rw [(edges_ofCell h0 h1 column).1, width_ofCell, cellWest_eq, neg_add_cancel_comm,
    mul_div_cancel_right₀ _ (by linarith), Int.floor_intCast]

theorem ofCell_emod (row column : ℤ) :
    ofCell row (column % rowColumns row) = ofCell row column := by
  unfold ofCell cellEighth
  rw [Int.emod_emod_of_dvd _ (dvd_refl _)]

/-! ## Canonical buckets -/

variable {b b' : Bucket}

theorem Canonical.ofCell_row_column (h : b.Canonical) : ofCell b.row b.column = b := by
  obtain ⟨row, column, h0, h1, rfl, -, -, -⟩ := h.exists_cell
  rw [row_ofCell, column_ofCell h0 h1, ofCell_emod]

/-- The row and the column of a canonical bucket are those of the globe. -/
theorem Canonical.row_column_mem (h : b.Canonical) :
    (0 ≤ b.row ∧ b.row < 1440) ∧ 0 ≤ b.column ∧ b.column < b.columnsAround := by
  obtain ⟨row, column, h0, h1, rfl, -, -, -⟩ := h.exists_cell
  have hn := le_rowColumns row
  rw [row_ofCell, column_ofCell h0 h1, columnsAround_ofCell]
  exact ⟨⟨h0, h1⟩, Int.emod_nonneg column (by omega), Int.emod_lt_of_pos column (by omega)⟩

/-- Canonical buckets are known by their rows and columns. -/
theorem Canonical.eq_of_row_column (h : b.Canonical) (h' : b'.Canonical) (hrow : b.row = b'.row)
    (hcolumn : b.column = b'.column) : b = b' := by
  rw [← h.ofCell_row_column, ← h'.ofCell_row_column, hrow, hcolumn]

/-- A bucket is canonical exactly when it is the cell in its row and column. -/
theorem canonical_iff_ofCell (b : Bucket) :
    b.Canonical ↔ (0 ≤ b.row ∧ b.row < 1440) ∧ ofCell b.row b.column = b := by
  constructor
  · intro h
    exact ⟨h.row_column_mem.1, h.ofCell_row_column⟩
  · rintro ⟨⟨h0, h1⟩, hcell⟩
    rw [← hcell]
    exact canonical_ofCell h0 h1 b.column

instance (b : Bucket) : Decidable b.Canonical :=
  decidable_of_iff _ (canonical_iff_ofCell b).symm

end Orthomosaic.Bucket
