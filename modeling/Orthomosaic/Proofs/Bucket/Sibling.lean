import Orthomosaic.Proofs.Bucket.Location

/-!
# Steps from cell to cell

`Bucket.sibling` looks up the point that lies a number of widths east and of heights north of the
centre of a bucket. Such a point lies inside a row of the globe, and where that row has the width
that the step was measured in, on the centre line of a column. So a step leads to the row it names
(`Bucket.exists_sibling_ofCell`), and between rows of one width to the column as well
(`Bucket.sibling_ofCell`).
-/

namespace Orthomosaic.Bucket

open Scalar

/-- The row some rows north of another, the first and the last being the ends. -/
def clampRow (row : ℤ) : ℤ :=
  max 0 (min 1439 row)

theorem clampRow_mem (row : ℤ) : 0 ≤ clampRow row ∧ clampRow row < 1440 := by
  unfold clampRow
  omega

theorem clampRow_of_mem {row : ℤ} (h0 : 0 ≤ row) (h1 : row < 1440) : clampRow row = row := by
  unfold clampRow
  omega

theorem cellWest_congr {row row' : ℤ} (h : rowUnits row = rowUnits row') (column : ℤ) :
    cellWest row column = cellWest row' column := by
  unfold cellWest cellEighth rowColumns
  rw [h]

/-- The southern edge of the row that a step leads to. -/
theorem rowSouth_clampRow (row : ℤ) :
    rowSouth (clampRow row) = max (-90) (min (719 / 8) (rowSouth row)) := by
  have hmono : Monotone rowSouth := fun _ _ => rowSouth_le
  have hfirst : rowSouth 0 = -90 := by
    unfold rowSouth
    norm_num
  have hlast : rowSouth 1439 = 719 / 8 := by
    unfold rowSouth
    norm_num
  unfold clampRow
  rw [hmono.map_max, hmono.map_min, hfirst, hlast]

/-- The latitude that a step looks up lies inside the row it leads to. -/
theorem between_poleLimit (row : ℤ) :
    rowSouth (clampRow row) ≤ between (-poleLimit) poleLimit (rowSouth row + 1 / 16)
      ∧ between (-poleLimit) poleLimit (rowSouth row + 1 / 16)
        ≤ rowSouth (clampRow row + 1) - snapTolerance := by
  have htol := snapTolerance_eq
  rw [between_eq_max_min (by rw [poleLimit_eq]; norm_num), rowSouth_succ, rowSouth_clampRow,
    poleLimit_eq]
  generalize rowSouth row = south
  refine ⟨max_le_max (by norm_num) (min_le_min (by norm_num) (by linarith)), max_le ?_ ?_⟩
  · linarith [le_max_left (-90) (min (719 / 8) south)]
  · have hedge := le_max_right (-90) (min (719 / 8) south)
    rcases le_total south (719 / 8) with h | h
    · rw [min_eq_right h] at hedge ⊢
      linarith [min_le_right (8999999 / 100000) (south + 1 / 16)]
    · rw [min_eq_left h] at hedge ⊢
      linarith [min_le_left (8999999 / 100000) (south + 1 / 16)]

/-- The point that a step from a cell looks up. -/
theorem sibling_eq (row column columns rows : ℤ) :
    (ofCell row column).sibling ℚ columns rows
      = containing (normalizeLon (cellWest row column + rowWidth row / 2
          + columns * rowWidth (clampRow (row + rows))))
        (between (-poleLimit) poleLimit (rowSouth (row + rows) + 1 / 16)) := by
  have htol := snapTolerance_pos
  obtain ⟨hsouth, hnorth⟩ := between_poleLimit (row + rows)
  have hlat : ((ofCell row column).centerLat : ℚ) + (rows : ℚ) * bucketHeight
      = rowSouth (row + rows) + 1 / 16 := by
    rw [centerLat_ofCell, bucketHeight_eq]
    unfold rowSouth
    push_cast
    ring
  have hspan : bucketSpan (between (-poleLimit) poleLimit (rowSouth (row + rows) + 1 / 16))
      = rowWidth (clampRow (row + rows)) := by
    rw [bucketSpan_eq, rowOf_eq hsouth (by linarith)]
    rfl
  rw [← centerLon_ofCell, ← hspan, ← hlat]
  rfl

/-- A step leads to the row that it says. -/
theorem exists_sibling_ofCell (row column columns rows : ℤ) :
    ∃ column', (ofCell row column).sibling ℚ columns rows
      = ofCell (clampRow (row + rows)) column' := by
  obtain ⟨hsouth, hnorth⟩ := between_poleLimit (row + rows)
  obtain ⟨h0, h1⟩ := clampRow_mem (row + rows)
  rw [sibling_eq]
  obtain ⟨row', column', hcell, hat⟩ := containing_spec _ ((le_rowSouth h0).trans hsouth)
  refine ⟨column', ?_⟩
  rw [hcell, hat.row_eq h1 hsouth hnorth]

/-- Where rows have one width, a step leads as many columns east and rows north as it says. -/
theorem sibling_ofCell {row rows : ℤ} (column columns : ℤ)
    (hunits : rowUnits (clampRow (row + rows)) = rowUnits row) :
    (ofCell row column).sibling ℚ columns rows
      = ofCell (clampRow (row + rows)) (column + columns) := by
  have htol := snapTolerance_eq
  have hw := le_rowWidth (clampRow (row + rows))
  obtain ⟨hsouth, hnorth⟩ := between_poleLimit (row + rows)
  obtain ⟨h0, h1⟩ := clampRow_mem (row + rows)
  have hwidth : rowWidth row = rowWidth (clampRow (row + rows)) := by
    unfold rowWidth
    rw [hunits]
  rw [sibling_eq]
  refine containing_of_interior (t := rowWidth (clampRow (row + rows)) / 2) h0 h1 hsouth hnorth
    (by linarith) (by linarith) ?_
  -- the centre of the cell that many columns further east
  have hstep := (sameMeridian_cellWest_add (clampRow (row + rows)) column columns).symm.add_right
    (rowWidth (clampRow (row + rows)) / 2)
  rw [cellWest_congr hunits.symm column, hwidth, add_right_comm]
  exact hstep.trans (sameMeridian_normalizeLon _).symm

/-- A step along a row. -/
theorem sibling_east {row : ℤ} (h0 : 0 ≤ row) (h1 : row < 1440) (column columns : ℤ) :
    (ofCell row column).sibling ℚ columns 0 = ofCell row (column + columns) := by
  have hrow : clampRow (row + 0) = row := by
    rw [add_zero]
    exact clampRow_of_mem h0 h1
  rw [sibling_ofCell column columns (by rw [hrow]), hrow]

end Orthomosaic.Bucket
