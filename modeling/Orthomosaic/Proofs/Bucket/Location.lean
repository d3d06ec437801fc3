import Orthomosaic.Proofs.Bucket.Place

/-!
# Which cell holds a point

`Bucket.containing` always finds a cell of the globe, and `Bucket.Located` says where the point then
lies: inside the cell, or less than the snapping tolerance south or west of it. Just south of the
edge of a band the width is read off the row below, so there the cell may be narrower than the
stretch that was looked up, and the point east of it by a few degrees.

Whatever keeps the tolerance from the northern and the eastern edge of a cell is found in it
(`Bucket.containing_of_interior`).
-/

namespace Orthomosaic

open Scalar

/-! ## The cell of a point -/

namespace Bucket

/-- Where a point lies that is found in a cell: less than the snapping tolerance south or west of it, or
in it, save that the last row holds all that is left at the pole and that a point south of its cell may
lie east of it too. -/
structure Located (row column : ℤ) (lon lat : ℚ) : Prop where
  row_nonneg : 0 ≤ row
  row_lt : row < 1440
  lt_lat : rowSouth row - snapTolerance < lat
  lat_lt : lat < rowSouth (row + 1) ∨ row = 1439
  exists_east : ∃ t, -snapTolerance < t ∧ t < 12 ∧ (rowSouth row ≤ lat → t < rowWidth row)
    ∧ SameMeridian (cellWest row column + t) lon

/-- A bucket is known by its degrees and its places within them. -/
theorem eq_ofCell {b : Bucket} {row column : ℤ} (hlon : b.lon = cellEighth row column / 8)
    (hlat : b.lat = row / 8 - 90)
    (hx : ((b.x : ℕ) : ℤ) = cellEighth row column % 8 / rowUnits row)
    (hy : ((b.y : ℕ) : ℤ) = row % 8) : b = ofCell row column := by
  have hx' : b.x = (ofCell row column).x := by
    rw [← x_ofCell] at hx
    exact Fin.ext (by exact_mod_cast hx)
  have hy' : b.y = (ofCell row column).y := by
    rw [← y_ofCell row column] at hy
    exact Fin.ext (by exact_mod_cast hy)
  cases b
  cases hlon
  cases hlat
  cases hx'
  cases hy'
  rfl

/-- The bucket of a point, read off the normalised longitude and the latitude held below the pole. -/
theorem containing_eq {lat : ℚ} (lon : ℚ) (hlat : -90 ≤ lat) :
    containing lon lat =
      { lon := if bucketSpan (min poleLimit lat) ≤ 1 then floorDegree (normalizeLon lon)
          else wideLon (normalizeLon lon) (bucketSpan (min poleLimit lat))
        lat := floorDegree (min poleLimit lat)
        x := if bucketSpan (min poleLimit lat) ≤ 1
          then eighth (truncate ((normalizeLon lon - (floorDegree (normalizeLon lon) : ℚ))
            / bucketSpan (min poleLimit lat)))
          else 0
        y := eighth (truncate
          ((min poleLimit lat - (floorDegree (min poleLimit lat) : ℚ)) * ((8 : ℤ) : ℚ))) } := by
  have hclamp : between (-90) poleLimit lat = min poleLimit lat := by
    rw [between_eq_max_min le_poleLimit, max_eq_right (le_min le_poleLimit hlat)]
  rw [← hclamp]
  rfl

/-- A bucket is at most a degree wide when it has at most eight eighths. -/
theorem bucketSpan_le_one_iff (lat : ℚ) : bucketSpan lat ≤ 1 ↔ rowUnits (rowOf lat) ≤ 8 := by
  have hcast : rowUnits (rowOf lat) ≤ 8 ↔ (rowUnits (rowOf lat) : ℚ) ≤ 8 := by
    exact_mod_cast Iff.rfl
  rw [bucketSpan_eq, hcast]
  constructor <;> intro h <;> linarith

/-- The column of a point whose latitude is known to be in or just south of a row: it is looked up
with the width at the latitude itself. -/
theorem exists_containing_eq (lon : ℚ) {lat : ℚ} {row : ℤ} (hlat : -90 ≤ lat)
    (hdegree : floorDegree (min poleLimit lat) = row / 8 - 90)
    (hy : ((eighth (truncate
      ((min poleLimit lat - (floorDegree (min poleLimit lat) : ℚ)) * (8 : ℤ))) : ℕ) : ℤ) = row % 8)
    (hle : rowUnits row ≤ rowUnits (rowOf (min poleLimit lat))) :
    ∃ column, containing lon lat = ofCell row column
      ∧ cellWest row column - snapTolerance < normalizeLon lon
      ∧ normalizeLon lon < cellWest row column + 12
      ∧ (rowUnits (rowOf (min poleLimit lat)) = rowUnits row →
        normalizeLon lon < cellWest row column + rowWidth row) := by
  have hL0 := le_normalizeLon lon
  have hL1 := normalizeLon_lt lon
  rw [containing_eq lon hlat]
  by_cases hnarrow : rowUnits (rowOf (min poleLimit lat)) ≤ 8
  · obtain ⟨column, hlon, hx, hfrom, hto, hwidth⟩ := exists_narrow hnarrow hle hL0 hL1
    have hspan := (bucketSpan_le_one_iff _).2 hnarrow
    rw [← bucketSpan_eq] at hx
    refine ⟨column, eq_ofCell ?_ hdegree ?_ hy, hfrom, by linarith, hwidth⟩
    · exact (if_pos hspan).trans hlon
    · rw [← hx]
      exact congrArg (fun x : Fin 8 => ((x : ℕ) : ℤ)) (if_pos hspan)
  · obtain ⟨column, hlon, hx, hfrom, hto, hwidth⟩ := exists_wide (not_le.1 hnarrow) hle hL0 hL1
    have hspan := mt (bucketSpan_le_one_iff _).1 hnarrow
    rw [← bucketSpan_eq] at hlon
    refine ⟨column, eq_ofCell ?_ hdegree ?_ hy, hfrom, hto, hwidth⟩
    · exact (if_neg hspan).trans hlon
    · rw [hx, Int.zero_ediv]
      exact congrArg (fun x : Fin 8 => ((x : ℕ) : ℤ)) (if_neg hspan)

/-- The limit of latitudes is in the last row. -/
theorem rowSouth_lt_poleLimit {row : ℤ} (h : row < 1440) : rowSouth row < poleLimit := by
  have : (row : ℚ) ≤ (1439 : ℤ) := by exact_mod_cast (show row ≤ 1439 by omega)
  push_cast at this
  unfold rowSouth poleLimit
  norm_num
  linarith

/-- What is held below the pole and still south of a row is south of it, if the row is not the last. -/
theorem lt_rowSouth_of_min {row : ℤ} {lat : ℚ} (h : min poleLimit lat < rowSouth (row + 1))
    (h1 : row < 1440) : lat < rowSouth (row + 1) ∨ row = 1439 := by
  by_cases hlast : row = 1439
  · exact .inr hlast
  · have hpole := rowSouth_lt_poleLimit (show row + 1 < 1440 by omega)
    exact .inl ((min_lt_iff.1 h).resolve_left (not_lt.2 hpole.le))

/-- Every point is found in a cell of the globe, and its normalised longitude is not a turn away from
that cell. -/
theorem exists_cell_containing {lat : ℚ} (lon : ℚ) (hlat : -90 ≤ lat) :
    ∃ row column, containing lon lat = ofCell row column ∧ Located row column lon lat
      ∧ -snapTolerance < normalizeLon lon - cellWest row column
      ∧ normalizeLon lon - cellWest row column < 12 := by
  obtain ⟨row, h0, h1, hdegree, hy, hlow, hhigh, hsnap⟩ :=
    exists_row (min poleLimit lat) (le_min le_poleLimit hlat) (min_le_left _ _)
  obtain ⟨column, hcell, hfrom, hto, hwidth⟩ :=
    exists_containing_eq lon hlat hdegree hy (rowUnits_le_rowOf hlow hhigh hsnap)
  have hfrom' : -snapTolerance < normalizeLon lon - cellWest row column := by linarith
  have hto' : normalizeLon lon - cellWest row column < 12 := by linarith
  refine ⟨row, column, hcell, ⟨h0, h1, ?_, lt_rowSouth_of_min hhigh h1, ?_⟩, hfrom', hto'⟩
  · exact hlow.trans_le (min_le_right _ _)
  -- in its own row the point is not east of the cell, as the width was looked up there
  refine ⟨normalizeLon lon - cellWest row column, hfrom', hto', ?_, ?_⟩
  · intro hsouth
    have hinside : rowSouth row ≤ min poleLimit lat := le_min (rowSouth_lt_poleLimit h1).le hsouth
    linarith [hwidth (by rw [rowOf_eq hinside hhigh])]
  · rw [add_sub_cancel]
    exact sameMeridian_normalizeLon lon

/-- Every point is found in a cell of the globe. -/
theorem containing_spec {lat : ℚ} (lon : ℚ) (hlat : -90 ≤ lat) :
    ∃ row column, containing lon lat = ofCell row column ∧ Located row column lon lat := by
  obtain ⟨row, column, hcell, hat, -, -⟩ := exists_cell_containing lon hlat
  exact ⟨row, column, hcell, hat⟩

/-- Latitudes that are held to one number are looked up alike. -/
theorem containing_congr {α : Type} [Scalar α] (lon : α) {lat lat' : α}
    (h : between (-90) poleLimit lat = between (-90) poleLimit lat') :
    containing lon lat = containing lon lat' := by
  unfold containing
  dsimp only
  rw [h]

/-- South of the pole a bucket is found as at the pole. -/
theorem containing_max (lon lat : ℚ) : containing lon (max (-90) lat) = containing lon lat := by
  refine containing_congr lon ?_
  refine (between_eq_max_min le_poleLimit _).trans
    (Eq.trans ?_ (between_eq_max_min le_poleLimit lat).symm)
  rw [min_max_distrib_left, min_eq_right le_poleLimit, ← max_assoc, max_self]

theorem exists_globe_cell (lon lat : ℚ) :
    ∃ row column, 0 ≤ row ∧ row < 1440 ∧ containing lon lat = ofCell row column := by
  obtain ⟨row, column, hcell, hat⟩ := containing_spec lon (le_max_left (-90) lat)
  exact ⟨row, column, hat.row_nonneg, hat.row_lt, (containing_max lon lat).symm.trans hcell⟩

/-! ## Inside a cell -/

/-- Two columns whose western edges name one meridian are one column. -/
theorem ofCell_congr {row column column' : ℤ}
    (h : SameMeridian (cellWest row column) (cellWest row column')) :
    ofCell row column = ofCell row column' := by
  have heq : cellWest row column = cellWest row column' :=
    h.eq_of_lt (by linarith [cellWest_lt row column, le_cellWest row column'])
      (by linarith [cellWest_lt row column', le_cellWest row column])
  unfold cellWest at heq
  have heighth : cellEighth row column = cellEighth row column' := by
    have : (cellEighth row column : ℚ) = cellEighth row column' := by linarith
    exact_mod_cast this
  unfold ofCell
  rw [heighth]

/-- The western edges of a row are whole widths apart. -/
theorem cellWest_eq_of_lt {row column column' : ℤ} {t t' : ℚ}
    (h : SameMeridian (cellWest row column + t) (cellWest row column' + t'))
    (hlow : t' - t < rowWidth row) (hhigh : t - t' < rowWidth row) :
    SameMeridian (cellWest row column) (cellWest row column') := by
  have hw := le_rowWidth row
  have hturn := rowColumns_mul_rowWidth row
  obtain ⟨k, hk⟩ := ((sameMeridian_cellWest row column).add_right t).trans
    (h.trans ((sameMeridian_cellWest row column').add_right t').symm)
  -- so many widths fit between the two ways to the point, and these differ by less than one
  have hsteps : ((column - column' + k * rowColumns row : ℤ) : ℚ) * rowWidth row = t' - t := by
    push_cast
    linear_combination (k : ℚ) * hturn - hk
  have hzero : column - column' + k * rowColumns row = 0 := by
    generalize column - column' + k * rowColumns row = j at hsteps
    have hj0 : (-1 : ℚ) < j := by nlinarith
    have hj1 : (j : ℚ) < 1 := by nlinarith
    have : -1 < j := by exact_mod_cast hj0
    have : j < 1 := by exact_mod_cast hj1
    omega
  have hsame : t = t' := by
    rw [hzero, Int.cast_zero, zero_mul] at hsteps
    linarith
  have hshift := h.add_right (-t)
  rw [hsame, add_neg_cancel_right, add_neg_cancel_right] at hshift
  exact hshift

/-- A latitude that keeps the tolerance from the northern edge of its row is found in that row. -/
theorem Located.row_eq {row row' column' : ℤ} {lon lat : ℚ} (hat : Located row' column' lon lat)
    (h1 : row < 1440) (hsouth : rowSouth row ≤ lat)
    (hnorth : lat ≤ rowSouth (row + 1) - snapTolerance) : row' = row := by
  rcases lt_trichotomy row' row with h | h | h
  · rcases hat.lat_lt with hlat | hlast
    · linarith [rowSouth_le (show row' + 1 ≤ row by omega)]
    · omega
  · exact h
  · linarith [rowSouth_le (show row + 1 ≤ row' by omega), hat.lt_lat]

theorem le_rowSouth {row : ℤ} (h : 0 ≤ row) : -90 ≤ rowSouth row := by
  have : (0 : ℚ) ≤ row := by exact_mod_cast h
  unfold rowSouth
  linarith

/-- What lies in a cell and keeps the tolerance from its northern and eastern edge is found in it. -/
theorem containing_of_interior {row column : ℤ} {lon lat t : ℚ} (h0 : 0 ≤ row) (h1 : row < 1440)
    (hsouth : rowSouth row ≤ lat) (hnorth : lat ≤ rowSouth (row + 1) - snapTolerance)
    (ht0 : 0 ≤ t) (ht1 : t ≤ rowWidth row - snapTolerance)
    (hlon : SameMeridian (cellWest row column + t) lon) :
    containing lon lat = ofCell row column := by
  obtain ⟨row', column', hcell, hat⟩ := containing_spec lon ((le_rowSouth h0).trans hsouth)
  have hrow : row' = row := hat.row_eq h1 hsouth hnorth
  subst hrow
  obtain ⟨t', ht0', -, ht1', hlon'⟩ := hat.exists_east
  rw [hcell]
  refine ofCell_congr (cellWest_eq_of_lt (hlon'.trans hlon.symm) ?_ ?_)
  · linarith
  · linarith [ht1' hsouth]

end Bucket

end Orthomosaic
