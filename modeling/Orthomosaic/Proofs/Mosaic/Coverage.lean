import Orthomosaic.Proofs.Mosaic.RowCover

/-!
# A resolved grid covers its target

The origin lies at most the snapping tolerance east and north of the target's south-western corner,
the first row goes on until it comes within the tolerance of the eastern edge or around the globe,
and the rows go on until they come within the tolerance of the northern edge. So every point of the
target is near a cell: in longitude and in latitude alike it lies on a stretch of equal steps
(`exists_step`).
-/

namespace Orthomosaic.BucketGrid

open Scalar

/-! ## Places on a stretch of steps -/

/-- A place on a stretch of equal steps lies on one of them, up to what it may be off the ends. -/
theorem exists_step {x step ε : ℚ} {m : ℕ} (hm : 0 < m) (h0 : -ε ≤ x) (h1 : x ≤ m * step + ε)
    (hε : 0 ≤ ε) : ∃ i < m, i * step - ε ≤ x ∧ x ≤ i * step + step + ε := by
  induction m with
  | zero => omega
  | succ m ih =>
    push_cast at h1
    by_cases hlast : 0 < m ∧ x ≤ m * step + ε
    · obtain ⟨i, hi, hfrom, hto⟩ := ih hlast.1 hlast.2
      exact ⟨i, Nat.lt_succ_of_lt hi, hfrom, hto⟩
    · refine ⟨m, Nat.lt_succ_self m, ?_, by linarith⟩
      rcases Nat.eq_zero_or_pos m with rfl | hpos
      · rw [Nat.cast_zero, zero_mul, zero_sub]
        exact h0
      · have hbeyond := not_le.1 (mt (And.intro hpos) hlast)
        linarith

/-! ## The target -/

theorem edgeInset_pos : (0 : ℚ) < edgeInset := by
  unfold edgeInset
  rw [literal_eq]
  norm_num

theorem snapTolerance_lt_edgeInset : (snapTolerance : ℚ) < edgeInset := by
  unfold edgeInset
  rw [snapTolerance_eq, literal_eq]
  norm_num

theorem edgeInset_lt : (edgeInset : ℚ) < 1 / 16 := by
  unfold edgeInset
  rw [literal_eq]
  norm_num

variable {desired : Bounds ℚ} {grid : BucketGrid ℚ} {row column : ℤ}

theorem wellFormed_targetOf (hdesired : desired.WellFormed) : (targetOf desired).WellFormed :=
  hdesired.shrunk edgeInset_pos.le

/-- The grid of a rectangle on the globe is a block, the first cell of which is the one found at the
south-western corner of the target. -/
theorem exists_block_of_resolve (hdesired : desired.WellFormed) (hsouth : -90 ≤ desired.south)
    (hnorth : desired.north ≤ 90) (h : Resolved desired grid) :
    ∃ row column, originOf desired = Bucket.ofCell row column
      ∧ Bucket.Located row column (targetOf desired).west (targetOf desired).south
      ∧ Block row column grid := by
  obtain ⟨hs, hn⟩ := Bounds.shrunk_lat hdesired edgeInset_pos.le
  exact h.exists_block (hsouth.trans hs) (hn.trans hnorth)

/-! ## How far a grid reaches -/

/-- A row that leaves a gap reaches the eastern edge of the target when its cells are wide enough
together. -/
theorem reachesEastOf_open_iff (hdesired : desired.WellFormed) (h0 : 0 ≤ row) (h1 : row < 1440)
    (horigin : originOf desired = Bucket.ofCell row column) {t : ℚ} (ht0 : -snapTolerance < t)
    (ht1 : t < 12) (hlon : SameMeridian (cellWest row column + t) (targetOf desired).west) {k : ℕ}
    (hgap : (k : ℤ) + 1 < rowColumns row) :
    (coveredEast desired k).reachesEastOf (targetOf desired) = true
      ↔ t + (targetOf desired).span ≤ (k + 1 : ℕ) * rowWidth row + Bounds.tolerance := by
  obtain ⟨hwf, -⟩ := lat_cover_row row column k
  obtain ⟨hwest, hspan⟩ := west_span_row column hgap
  rw [coveredEast_eq h0 h1 horigin,
    Bounds.reachesEastOf_iff hwf (wellFormed_targetOf hdesired),
    lonPosition_open hwest hspan (by push_cast; exact hgap) ht0 ht1 hlon, hspan]

/-- The longitudes that the first row covers reach the eastern edge of the target, or go around the
globe. -/
theorem Resolved.reach_east (h : Resolved desired grid) (hdesired : desired.WellFormed)
    (hblock : Block row column grid) (horigin : originOf desired = Bucket.ofCell row column)
    (hgap : (grid.columns : ℤ) < rowColumns row) {t : ℚ} (ht0 : -snapTolerance < t) (ht1 : t < 12)
    (hlon : SameMeridian (cellWest row column + t) (targetOf desired).west) :
    t + (targetOf desired).span ≤ grid.columns * rowWidth row + Bounds.tolerance := by
  have hrow := hblock.row_nonneg
  have hend := hblock.row_add_le
  have hpos := hblock.rows_pos
  have hcolumns := hblock.columns_pos
  have hcount : grid.columns - 1 + 1 = grid.columns := by omega
  have hreach := h.reaches_east
  rwa [reachesEastOf_open_iff hdesired hrow (by omega) horigin ht0 ht1 hlon (by omega), hcount]
    at hreach

/-- The rows reach the northern edge of the target. -/
theorem Resolved.reach_north (h : Resolved desired grid) (hblock : Block row column grid) :
    (targetOf desired).north ≤ rowSouth (row + grid.rows) + Bounds.tolerance := by
  have hreach := h.reaches_north
  rw [Bounds.reachesNorthOf_iff hblock.wellFormed_bounds, hblock.south_north.2] at hreach
  exact hreach

/-! ## Points near a cell -/

/-- A longitude of the target is near a column. -/
theorem Resolved.exists_column_near (h : Resolved desired grid) (hdesired : desired.WellFormed)
    (hblock : Block row column grid) (horigin : originOf desired = Bucket.ofCell row column)
    {t s lon ε : ℚ} (ht0 : -snapTolerance < t) (ht1 : t < 12)
    (ht : SameMeridian (cellWest row column + t) (targetOf desired).west)
    (hs0 : 0 ≤ s) (hs1 : s ≤ (targetOf desired).span)
    (hs : SameMeridian ((targetOf desired).west + s) lon)
    (hε : snapTolerance + Bounds.tolerance ≤ ε) :
    ∃ c < grid.columns, ∃ x, -ε ≤ x ∧ x ≤ rowWidth row + ε
      ∧ SameMeridian (cellWest row (column + c) + x) lon := by
  have hsnap := snapTolerance_pos
  have htol := Bounds.tolerance_pos
  have hcolumns := hblock.columns_pos
  -- a way from the first cell to the longitude that is no longer than the row
  obtain ⟨x, hx0, hx1, hx⟩ : ∃ x, -ε ≤ x ∧ x ≤ grid.columns * rowWidth row + ε
      ∧ SameMeridian (cellWest row column + x) lon := by
    rcases lt_or_ge (grid.columns : ℤ) (rowColumns row) with hgap | hfull
    · have hreach := h.reach_east hdesired hblock horigin hgap ht0 ht1 ht
      refine ⟨t + s, by linarith, by linarith, ?_⟩
      have hmove := ht.add_right s
      rw [add_assoc] at hmove
      exact hmove.trans hs
    · -- a closed row holds every way east
      have hw := le_rowWidth row
      have hturn := rowColumns_mul_rowWidth row
      have hfullq : (rowColumns row : ℚ) ≤ grid.columns := by exact_mod_cast hfull
      have hlt := eastward_lt (cellWest row column) lon
      refine ⟨eastward (cellWest row column) lon, ?_, ?_, sameMeridian_eastward _ _⟩
      · linarith [eastward_nonneg (cellWest row column) lon]
      · nlinarith
  obtain ⟨c, hc, hfrom, hto⟩ := exists_step hcolumns hx0 hx1 (by linarith)
  refine ⟨c, hc, x - c * rowWidth row, by linarith, by linarith, ?_⟩
  have hcell := (sameMeridian_cellWest_add row column c).symm.add_right (x - c * rowWidth row)
  rw [Int.cast_natCast, add_assoc, add_sub_cancel] at hcell
  exact hcell.trans hx

/-- A latitude of the target is near a row. -/
theorem Resolved.exists_row_near (h : Resolved desired grid) (hblock : Block row column grid)
    {lat ε : ℚ} (hlow : rowSouth row - snapTolerance < lat) (hhigh : lat ≤ (targetOf desired).north)
    (hε : snapTolerance + Bounds.tolerance ≤ ε) :
    ∃ r < grid.rows, rowSouth (row + r) - ε ≤ lat ∧ lat ≤ rowSouth (row + r + 1) + ε := by
  have hsnap := snapTolerance_pos
  have htol := Bounds.tolerance_pos
  have hreach := h.reach_north hblock
  have hsouth : ∀ r : ℕ, rowSouth (row + r) = rowSouth row + r * (1 / 8) := by
    intro r
    unfold rowSouth
    push_cast
    ring
  rw [hsouth] at hreach
  have hx1 : lat - rowSouth row ≤ grid.rows * (1 / 8) + ε := by linarith
  obtain ⟨r, hr, hfrom, hto⟩ :=
    exists_step hblock.rows_pos (show -ε ≤ lat - rowSouth row by linarith) hx1 (by linarith)
  refine ⟨r, hr, ?_, ?_⟩
  · rw [hsouth]
    linarith
  · rw [rowSouth_succ, hsouth]
    linarith

/-! ## Coverage -/

/-- Every point of the target of a resolved grid lies within the sum of the two tolerances, in
longitude and in latitude, of a cell and of the rectangle of the grid. -/
theorem resolve_covers_target (hdesired : desired.WellFormed) (hsouth : -90 ≤ desired.south)
    (hnorth : desired.north ≤ 90) (h : resolve desired = .ok (some grid)) {lon lat : ℚ}
    (hpoint : (desired.shrunk edgeInset).Holds lon lat) :
    (∃ cell ∈ grid.cells,
        (cell.bounds : Bounds ℚ).Near (snapTolerance + Bounds.tolerance) lon lat)
      ∧ grid.bounds.Near (snapTolerance + Bounds.tolerance) lon lat := by
  have hresolved := resolved_of_resolve h
  obtain ⟨row, column, horigin, hat, hblock⟩ :=
    exists_block_of_resolve hdesired hsouth hnorth hresolved
  obtain ⟨t, ht0, ht1, -, ht⟩ := hat.exists_east
  obtain ⟨⟨s, hs0, hs1, hs⟩, hlow, hhigh⟩ := hpoint
  rw [neg_zero] at hs0
  rw [add_zero] at hs1 hhigh
  rw [sub_zero] at hlow
  have hε : 0 ≤ (snapTolerance + Bounds.tolerance : ℚ) :=
    (add_pos snapTolerance_pos Bounds.tolerance_pos).le
  obtain ⟨c, hc, x, hx0, hx1, hx⟩ := hresolved.exists_column_near hdesired hblock horigin
    ht0 ht1 ht hs0 hs1 hs (le_refl _)
  obtain ⟨r, hr, hfrom, hto⟩ :=
    hresolved.exists_row_near hblock (hat.lt_lat.trans_le hlow) hhigh (le_refl _)
  have hmem : Bucket.ofCell (row + r) (column + c) ∈ grid.cells := by
    rw [hblock.cells_eq]
    exact mem_cellRows.2 ⟨r, hr, c, hc, rfl⟩
  have hnear : ((Bucket.ofCell (row + r) (column + c)).bounds : Bounds ℚ).Near
      (snapTolerance + Bounds.tolerance) lon lat := by
    have hunits := hblock.units_eq r hr
    rw [Bucket.bounds_ofCell]
    refine ⟨⟨x, hx0, ?_, ?_⟩, hfrom, hto⟩
    · change x ≤ rowWidth (row + r) + _
      unfold rowWidth at hx1 ⊢
      rw [hunits]
      exact hx1
    · change SameMeridian (cellWest (row + r) (column + c) + x) lon
      rw [Bucket.cellWest_congr hunits]
      exact hx
  exact ⟨⟨_, hmem, hnear⟩, hblock.near_bounds hε hmem hnear⟩

/-- A rectangle across the antimeridian, which needs a cell on either side, and one of its points
east of the antimeridian. -/
theorem resolve_covers_across_antimeridian :
    ∃ grid, (⟨1799 / 10, 3 / 20, 0, 1 / 10⟩ : Bounds ℚ).WellFormed
      ∧ resolve (⟨1799 / 10, 3 / 20, 0, 1 / 10⟩ : Bounds ℚ) = .ok (some grid)
      ∧ grid.cells = [⟨179, 0, 7, 0⟩, ⟨-180, 0, 0, 0⟩]
      ∧ ((⟨1799 / 10, 3 / 20, 0, 1 / 10⟩ : Bounds ℚ).shrunk edgeInset).Holds
        (-17997 / 100) (1 / 20)
      ∧ ∃ cell ∈ grid.cells, (cell.bounds : Bounds ℚ).Near (snapTolerance + Bounds.tolerance)
        (-17997 / 100) (1 / 20) := by
  have hdesired : (⟨1799 / 10, 3 / 20, 0, 1 / 10⟩ : Bounds ℚ).WellFormed :=
    Bounds.wellFormed_iff.2 ⟨by norm_num, by norm_num, by norm_num, by norm_num, by norm_num⟩
  obtain ⟨grid, hgrid, hcells⟩ := exists_of_resolvesWith
    (show resolvesWith (⟨1799 / 10, 3 / 20, 0, 1 / 10⟩ : Bounds ℚ)
      (fun grid => decide (grid.cells = [⟨179, 0, 7, 0⟩, ⟨-180, 0, 0, 0⟩])) = true by decide +kernel)
  have hpoint : ((⟨1799 / 10, 3 / 20, 0, 1 / 10⟩ : Bounds ℚ).shrunk edgeInset).Holds
      (-17997 / 100) (1 / 20) := by
    have hspan := (hdesired.shrunk edgeInset_pos.le).zero_le_span
    refine ⟨(Bounds.exists_east_iff_lonPosition hspan (le_refl 0)).2 ?_, ?_, ?_⟩
    · decide +kernel
    · decide +kernel
    · decide +kernel
  refine ⟨grid, hdesired, hgrid, of_decide_eq_true hcells, hpoint, ?_⟩
  exact (resolve_covers_target hdesired (by norm_num) (by norm_num) hgrid hpoint).1

end Orthomosaic.BucketGrid
