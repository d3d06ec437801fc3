import Orthomosaic.Proofs.Bucket.ExactSteps
import Orthomosaic.Proofs.Bucket.Numbering

/-!
# Steps around the globe

A step on doubles leads from a cell to the cell as many rows north and as many columns east, the rows
held at the poles and the columns taken around the globe, wherever the two rows have one width
(`Bucket.sibling_float_ofCell`). Steps between such rows therefore behave as on a cylinder: they add
up, in any order, and lead back after a turn (`Bucket.sibling_cylinder`).
-/

namespace Orthomosaic.Bucket

/-- A row whose buckets are as wide as this one, as the latitude of its centre line tells. -/
def SharesWidth (b : Bucket) (row : ℤ) : Prop :=
  bucketSpan (rowSouth row + 1 / 16) = (b.width : ℚ)

/-- The width along the centre line of a row. -/
theorem bucketSpan_centerLine (row : ℤ) : bucketSpan (rowSouth row + 1 / 16) = rowWidth row := by
  have hnorth := rowSouth_succ row
  have hrow : rowOf (rowSouth row + 1 / 16) = row := rowOf_eq (by linarith) (by linarith)
  rw [bucketSpan_eq, hrow]
  rfl

theorem sharesWidth_ofCell_iff (row column row' : ℤ) :
    (ofCell row column).SharesWidth row' ↔ rowUnits row' = rowUnits row := by
  unfold SharesWidth
  rw [bucketSpan_centerLine, width_ofCell, rowWidth_eq_iff]

/-! ## Steps between cells -/

variable {row columns rows columns' rows' : ℤ}

/-- A step on doubles between rows of one width. -/
theorem sibling_float_ofCell (h0 : 0 ≤ row) (h1 : row < 1440) (column : ℤ)
    (hcolumns : Word.fits32 columns = true) (hrows : Word.fits32 rows = true)
    (hunits : rowUnits (clampRow (row + rows)) = rowUnits row) :
    (ofCell row column).sibling Float columns rows
      = ofCell (clampRow (row + rows)) (column + columns) := by
  rw [sibling_float (canonical_ofCell h0 h1 column).toOnGlobe hcolumns hrows,
    sibling_ofCell column columns hunits]

/-- A step on doubles to a row of the globe. -/
theorem sibling_float_ofCell_of_mem (h0 : 0 ≤ row) (h1 : row < 1440) (column : ℤ)
    (hcolumns : Word.fits32 columns = true) (hrows : Word.fits32 rows = true)
    (h0' : 0 ≤ row + rows) (h1' : row + rows < 1440)
    (hunits : rowUnits (row + rows) = rowUnits row) :
    (ofCell row column).sibling Float columns rows = ofCell (row + rows) (column + columns) := by
  have hclamp := clampRow_of_mem h0' h1'
  rw [sibling_float_ofCell h0 h1 column hcolumns hrows (by rw [hclamp, hunits]), hclamp]

/-- A step on doubles along a row. -/
theorem sibling_float_east (h0 : 0 ≤ row) (h1 : row < 1440) (column : ℤ)
    (hcolumns : Word.fits32 columns = true) :
    (ofCell row column).sibling Float columns 0 = ofCell row (column + columns) := by
  have hrows : Word.fits32 0 = true := by decide
  have h := sibling_float_ofCell_of_mem h0 h1 column hcolumns hrows (by omega) (by omega)
    (by rw [add_zero])
  rwa [add_zero] at h

/-- Two steps on doubles, the first of them to a row of the globe. -/
theorem sibling_sibling_ofCell (h0 : 0 ≤ row) (h1 : row < 1440) (column : ℤ)
    (hcolumns : Word.fits32 columns = true) (hrows : Word.fits32 rows = true)
    (hcolumns' : Word.fits32 columns' = true) (hrows' : Word.fits32 rows' = true)
    (h0' : 0 ≤ row + rows) (h1' : row + rows < 1440)
    (hunits : rowUnits (row + rows) = rowUnits row)
    (hunits' : rowUnits (clampRow (row + rows + rows')) = rowUnits row) :
    ((ofCell row column).sibling Float columns rows).sibling Float columns' rows'
      = ofCell (clampRow (row + rows + rows')) (column + columns + columns') := by
  rw [sibling_float_ofCell_of_mem h0 h1 column hcolumns hrows h0' h1' hunits,
    sibling_float_ofCell h0' h1' _ hcolumns' hrows' (hunits'.trans hunits.symm)]

/-- A number of single steps to the east. -/
theorem iterate_sibling_east (h0 : 0 ≤ row) (h1 : row < 1440) (column : ℤ) (k : ℕ) :
    (fun c : Bucket => c.sibling Float 1 0)^[k] (ofCell row column) = ofCell row (column + k) := by
  induction k with
  | zero => rw [Function.iterate_zero_apply, Nat.cast_zero, add_zero]
  | succ k ih =>
    rw [Function.iterate_succ_apply', ih, sibling_float_east h0 h1 _ (by decide), Nat.cast_succ,
      add_assoc]

/-- A turn leads to the same cell. -/
theorem ofCell_add_rowColumns (row column : ℤ) :
    ofCell row (column + rowColumns row) = ofCell row column := by
  rw [← ofCell_emod, Int.add_emod_right, ofCell_emod]

/-! ## The cylinder -/

/-- The column of a canonical bucket is a whole number of widths east of -180, and its columns go
around the globe exactly. -/
theorem Canonical.column_mul_width {b : Bucket} (h : b.Canonical) :
    (b.column : ℚ) * b.width = b.lon + ((b.x : ℕ) : ℚ) * b.width + 180
      ∧ (b.columnsAround : ℚ) * b.width = 360 := by
  obtain ⟨row, column, h0, h1, hcell, hwest, -, hwidth⟩ := h.exists_cell
  have hturn := rowColumns_mul_rowWidth row
  have hplace : (b.lon : ℚ) + ((b.x : ℕ) : ℚ) * b.width = cellWest row column := hwest.symm
  rw [hplace, ← hwidth, hcell, column_ofCell h0 h1, columnsAround_ofCell]
  refine ⟨?_, hturn⟩
  rw [cellWest_eq, neg_add_cancel_comm]

/-- Steps on doubles, by numbers of columns and rows that fit into words of 32 bits, go around a
cylinder wherever they stay between rows of one width: each leads to the canonical bucket of the row
and the column that the numbers say. Hence steps add up, in any order, unless the first of two passes
a pole; a step east and one west undo each other; and as many steps east as there are columns lead
back, at once or one by one. -/
theorem sibling_cylinder {b : Bucket} (h : b.Canonical) :
    ((0 ≤ b.row ∧ b.row < 1440)
      ∧ (0 ≤ b.column ∧ b.column < b.columnsAround)
      ∧ (b.column : ℚ) * b.width = b.lon + ((b.x : ℕ) : ℚ) * b.width + 180
      ∧ (b.columnsAround : ℚ) * b.width = 360)
    ∧ (∀ columns rows : ℤ, Word.fits32 columns = true → Word.fits32 rows = true →
        b.SharesWidth (clampRow (b.row + rows)) →
          (b.sibling Float columns rows).Canonical
          ∧ (b.sibling Float columns rows).row = clampRow (b.row + rows)
          ∧ (b.sibling Float columns rows).column = (b.column + columns) % b.columnsAround)
    ∧ (∀ columns rows columns' rows' : ℤ, Word.fits32 columns = true → Word.fits32 rows = true →
        Word.fits32 columns' = true → Word.fits32 rows' = true →
        0 ≤ b.row + rows → b.row + rows < 1440 → b.SharesWidth (b.row + rows) →
        b.SharesWidth (clampRow (b.row + rows + rows')) →
          (Word.fits32 (columns + columns') = true → Word.fits32 (rows + rows') = true →
            (b.sibling Float columns rows).sibling Float columns' rows'
              = b.sibling Float (columns + columns') (rows + rows'))
          ∧ (0 ≤ b.row + rows' → b.row + rows' < 1440 → b.SharesWidth (b.row + rows') →
            (b.sibling Float columns rows).sibling Float columns' rows'
              = (b.sibling Float columns' rows').sibling Float columns rows))
    ∧ (b.sibling Float (-1) 0).sibling Float 1 0 = b
    ∧ (b.sibling Float 1 0).sibling Float (-1) 0 = b
    ∧ b.sibling Float b.columnsAround 0 = b
    ∧ (fun c : Bucket => c.sibling Float 1 0)^[b.columnsAround.toNat] b = b := by
  have hcolumn := h.column_mul_width
  obtain ⟨hrow, hcolumn'⟩ := h.row_column_mem
  obtain ⟨row, column, h0, h1, rfl, -, -, -⟩ := h.exists_cell
  refine ⟨⟨hrow, hcolumn', hcolumn⟩, ?_, ?_, ?_, ?_, ?_, ?_⟩
  · intro columns rows hcolumns hrows hwidth
    rw [row_ofCell, sharesWidth_ofCell_iff] at hwidth
    obtain ⟨hlow, hhigh⟩ := clampRow_mem (row + rows)
    rw [row_ofCell, sibling_float_ofCell h0 h1 column hcolumns hrows hwidth, row_ofCell,
      column_ofCell hlow hhigh, column_ofCell h0 h1, columnsAround_ofCell, rowColumns_congr hwidth,
      Int.emod_add_emod]
    exact ⟨canonical_ofCell hlow hhigh _, rfl, rfl⟩
  · intro columns rows columns' rows' hcolumns hrows hcolumns' hrows' hlow hhigh hwidth hwidth'
    rw [row_ofCell] at hlow hhigh
    rw [row_ofCell, sharesWidth_ofCell_iff] at hwidth hwidth'
    rw [sibling_sibling_ofCell h0 h1 column hcolumns hrows hcolumns' hrows' hlow hhigh hwidth
      hwidth']
    constructor
    · intro hsum hsum'
      rw [sibling_float_ofCell h0 h1 column hsum hsum' (by rw [← add_assoc, hwidth']), ← add_assoc,
        ← add_assoc]
    · intro hlow' hhigh' hother
      rw [row_ofCell] at hlow' hhigh'
      rw [row_ofCell, sharesWidth_ofCell_iff] at hother
      rw [sibling_sibling_ofCell h0 h1 column hcolumns' hrows' hcolumns hrows hlow' hhigh' hother
        (by rw [add_right_comm, hwidth']), add_right_comm row, add_right_comm column]
  · rw [sibling_float_east h0 h1 column (by decide), sibling_float_east h0 h1 _ (by decide),
      neg_add_cancel_right]
  · rw [sibling_float_east h0 h1 column (by decide), sibling_float_east h0 h1 _ (by decide),
      add_neg_cancel_right]
  · have hn := rowColumns_mul_rowUnits row
    have hfits : Word.fits32 (rowColumns row) = true := by
      refine decide_eq_true ?_
      have := le_rowColumns row
      have := rowUnits_pos row
      constructor <;> nlinarith
    rw [columnsAround_ofCell, sibling_float_east h0 h1 column hfits, ofCell_add_rowColumns]
  · have hn := le_rowColumns row
    rw [columnsAround_ofCell, iterate_sibling_east h0 h1, Int.toNat_of_nonneg (by omega),
      ofCell_add_rowColumns]

/-- A bucket that begins at the antimeridian: a step west and far beyond the pole leads to the last
row and the column before, and around the globe it has thirty columns. -/
theorem sibling_cylinder_at_antimeridian :
    (⟨-180, 89, 0, 3⟩ : Bucket).Canonical
      ∧ (⟨-180, 89, 0, 3⟩ : Bucket).sibling Float (-1) 2147483647 = ⟨168, 89, 0, 7⟩
      ∧ (⟨-180, 89, 0, 3⟩ : Bucket).sibling Float 30 0 = ⟨-180, 89, 0, 3⟩ := by
  have hcanonical : (⟨-180, 89, 0, 3⟩ : Bucket).Canonical := by decide +kernel
  have htarget : (⟨168, 89, 0, 7⟩ : Bucket).Canonical := by decide +kernel
  have haround : (⟨-180, 89, 0, 3⟩ : Bucket).columnsAround = 30 := by decide +kernel
  obtain ⟨-, hstep, -, -, -, hturn, -⟩ := sibling_cylinder hcanonical
  rw [haround] at hturn
  obtain ⟨hfound, hrow, hcolumn⟩ := hstep (-1) 2147483647 (by decide) (by decide)
    (by unfold SharesWidth; decide +kernel)
  exact ⟨hcanonical, hfound.eq_of_row_column htarget (hrow.trans (by decide +kernel))
    (hcolumn.trans (by decide +kernel)), hturn⟩

end Orthomosaic.Bucket
