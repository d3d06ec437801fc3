import Orthomosaic.Proofs.Mosaic.RowCover

/-!
# The longitudes that a closed row covers

The cell that closes the ring leaves the choice of an edge to the rule for arcs of one width: the
first cell's edge is kept unless the closing cell starts at the antimeridian (`west_span_closed`).
From there on every further cell is compared with a full ring, and a ring that once starts at the
antimeridian goes on to do so (`Ring.cover_cells`). So a closed grid of two rows or more starts at the
antimeridian wherever its first cell is (`Block.west_of_next_row`).
-/

namespace Orthomosaic.BucketGrid

open Scalar

variable {row column : ℤ} {a : Bounds ℚ} {grid : BucketGrid ℚ} {desired : Bounds ℚ}

/-! ## Closing the ring -/

/-- The cell before another one, seen from the antimeridian. -/
theorem cellWest_before (row column : ℤ) :
    cellWest row column = -180 ∨ cellWest row column = -180 + rowWidth row
        ∧ cellWest row (column + (rowColumns row - 1)) = -180
      ∨ -180 + rowWidth row < cellWest row column
        ∧ -180 + rowWidth row ≤ cellWest row (column + (rowColumns row - 1))
        ∧ cellWest row (column + (rowColumns row - 1)) ≤ cellWest row column := by
  have hn := le_rowColumns row
  have hu := rowUnits_pos row
  have hq : (0 : ℚ) < rowUnits row := by exact_mod_cast hu
  have hc0 := Int.emod_nonneg column (show rowColumns row ≠ 0 by omega)
  have hc1 := Int.emod_lt_of_pos column (show 0 < rowColumns row by omega)
  have hstep : (column + (rowColumns row - 1)) % rowColumns row
      = (column % rowColumns row + (rowColumns row - 1)) % rowColumns row := by
    rw [Int.emod_add_emod]
  unfold cellWest cellEighth rowWidth
  rw [hstep]
  -- only the first cell of the turn has the last one before it
  generalize column % rowColumns row = c at hc0 hc1
  rcases hc0.lt_or_eq with hpos | rfl
  · have hback : (c + (rowColumns row - 1)) % rowColumns row = c - 1 := by
      rw [show c + (rowColumns row - 1) = c - 1 + rowColumns row by ring, Int.add_emod_right]
      exact Int.emod_eq_of_lt (by omega) (by omega)
    rw [hback]
    push_cast
    rcases (show (1 : ℤ) ≤ c by omega).lt_or_eq with hmore | rfl
    · have hc : (2 : ℚ) ≤ c := by exact_mod_cast hmore
      refine .inr (.inr ⟨?_, ?_, ?_⟩) <;> nlinarith
    · refine .inr (.inl ⟨?_, ?_⟩) <;> push_cast <;> ring
  · left
    push_cast
    ring

/-- A whole row covers the ring. Its edge is the first cell's, unless the last cell starts at the
antimeridian. -/
theorem west_span_closed (row column : ℤ) {k : ℕ} (hk : (k : ℤ) + 1 = rowColumns row) :
    (cover (Bucket.ofCell row column).bounds (cellRun row (column + 1) k) : Bounds ℚ).span = 360
      ∧ (cover (Bucket.ofCell row column).bounds (cellRun row (column + 1) k) : Bounds ℚ).west
        = if cellWest row column = -180 + rowWidth row then -180 else cellWest row column := by
  have hn := le_rowColumns row
  have hw := le_rowWidth row
  have hturn := rowColumns_mul_rowWidth row
  obtain ⟨k, rfl⟩ := Nat.exists_eq_add_of_le' (show 1 ≤ k by omega)
  have hlast : column + 1 + (k : ℤ) = column + (rowColumns row - 1) := by
    push_cast at hk
    linarith
  obtain ⟨hwest, hspan⟩ := west_span_row column (show (k : ℤ) + 1 < rowColumns row by omega)
  obtain ⟨hwf, -⟩ := lat_cover_row row column k
  have hcell := Bucket.wellFormed_bounds_ofCell row (column + (rowColumns row - 1))
  obtain ⟨hwest', hspan'⟩ :=
    west_span_bounds (rfl : rowUnits row = _) (column + (rowColumns row - 1))
  rw [cellRun_succ_last, cover_append, cover_cons, cover_nil, hlast]
  have hcount : ((k + 1 : ℕ) : ℚ) = rowColumns row - 1 := by
    have : ((k + 1 : ℕ) : ℤ) = rowColumns row - 1 := by omega
    exact_mod_cast this
  rw [hcount] at hspan
  obtain ⟨hring, hedge⟩ := Bounds.absorb_of_ring hwf.isEmpty_eq_false hcell.isEmpty_eq_false
    (by
      rw [Bounds.spanFrom_eq, hwest, hwest', hspan, hspan', eastward_cellWest (by omega) (by omega)]
      push_cast
      refine min_eq_right (le_max_of_le_right ?_)
      linarith)
    (by
      rw [Bounds.spanFrom_eq, hwest, hwest', hspan, eastward_cellWest_back (by omega) (by omega)]
      push_cast
      refine min_eq_right (le_max_of_le_right ?_)
      linarith)
  refine ⟨hring, hedge.trans ?_⟩
  rw [hwest, hwest']
  have htol := Bounds.tolerance_eq
  rcases cellWest_before row column with h | ⟨h, h'⟩ | ⟨h, h', hle⟩
  · rw [h, Bounds.ringWest_of_antimeridian, if_neg (by linarith)]
  · rw [h', if_pos h, Bounds.ringWest_antimeridian (by linarith)]
  · rw [Bounds.ringWest_of_le (by linarith) hle, if_neg (by linarith)]

/-- An edge is at the antimeridian or at least the tolerance east of it. -/
theorem edge_cellWest (row column : ℤ) :
    cellWest row column = -180 ∨ -180 + Bounds.tolerance < cellWest row column := by
  have hw := le_rowWidth row
  have htol := Bounds.tolerance_eq
  rcases cellWest_before row column with h | ⟨h, -⟩ | ⟨h, -⟩
  · exact .inl h
  · exact .inr (by linarith)
  · exact .inr (by linarith)

/-! ## Full rings -/

/-- A full ring that starts at the edge of a cell. -/
structure Ring (a : Bounds ℚ) : Prop where
  wellFormed : a.WellFormed
  span_eq : a.span = 360
  edge : a.west = -180 ∨ -180 + Bounds.tolerance < a.west

/-- A ring that absorbs a cell goes around the globe, and its edge is compared with that of the
cell. -/
theorem Ring.span_west_absorb (ha : Ring a) (row column : ℤ) :
    (a.absorb (Bucket.ofCell row column).bounds).span = 360
      ∧ (a.absorb (Bucket.ofCell row column).bounds).west
        = Bounds.ringWest a.west (cellWest row column) := by
  have hcell := Bucket.wellFormed_bounds_ofCell row column
  have hcellwest : ((Bucket.ofCell row column).bounds : Bounds ℚ).west = cellWest row column := by
    rw [Bucket.bounds_ofCell]
  obtain ⟨hkeep, htake⟩ :=
    Bounds.spanFrom_of_ring ha.span_eq ((Bucket.ofCell row column).bounds : Bounds ℚ)
  rw [← hcellwest]
  exact Bounds.absorb_of_ring ha.wellFormed.isEmpty_eq_false hcell.isEmpty_eq_false hkeep htake

/-- A ring that absorbs a cell stays one, and starts at the antimeridian if it or the cell did. -/
theorem Ring.absorb (ha : Ring a) (row column : ℤ) :
    Ring (a.absorb (Bucket.ofCell row column).bounds)
      ∧ (a.west = -180 ∨ cellWest row column = -180 →
        (a.absorb (Bucket.ofCell row column).bounds).west = -180) := by
  have hcell := Bucket.wellFormed_bounds_ofCell row column
  obtain ⟨hspan, hwest⟩ := ha.span_west_absorb row column
  refine ⟨⟨ha.wellFormed.absorb hcell, hspan, ?_⟩, ?_⟩
  · rw [hwest]
    rcases Bounds.ringWest_eq_or a.west (cellWest row column) with h | h <;> rw [h]
    · exact ha.edge
    · exact edge_cellWest row column
  · rw [hwest]
    rintro (h | h)
    · rw [h, Bounds.ringWest_of_antimeridian]
    · rw [h]
      rcases ha.edge with hstart | haway
      · rw [hstart, Bounds.ringWest_of_antimeridian]
      · exact Bounds.ringWest_antimeridian haway

/-- A ring that is grown by cells stays one, and starts at the antimeridian if it or one of the cells
did. -/
theorem Ring.cover_cells {cells : List Bucket} (ha : Ring a)
    (hcells : ∀ cell ∈ cells, ∃ row column, Bucket.ofCell row column = cell) :
    Ring (cover a cells)
      ∧ (a.west = -180 ∨ (∃ cell ∈ cells, (cell.bounds : Bounds ℚ).west = -180) →
        (cover a cells).west = -180) := by
  induction cells generalizing a with
  | nil =>
    refine ⟨ha, ?_⟩
    rintro (h | ⟨cell, hcell, -⟩)
    · exact h
    · exact absurd hcell List.not_mem_nil
  | cons cell cells ih =>
    obtain ⟨row, column, rfl⟩ := hcells cell (List.mem_cons_self ..)
    obtain ⟨hring, hstart⟩ := ha.absorb row column
    obtain ⟨hrest, hend⟩ := ih hring fun other hother =>
      hcells other (List.mem_cons_of_mem _ hother)
    refine ⟨hrest, ?_⟩
    rintro (h | ⟨other, hother, h⟩)
    · exact hend (.inl (hstart (.inl h)))
    · rcases List.mem_cons.1 hother with rfl | hlater
      · rw [Bucket.bounds_ofCell] at h
        exact hend (.inl (hstart (.inr h)))
      · exact hend (.inr ⟨other, hlater, h⟩)

/-- A ring measures every longitude eastward. -/
theorem lonPosition_closed (has : a.span = 360) (lon : ℚ) :
    a.lonPosition lon = eastward a.west lon :=
  Bounds.lonPosition_of_le (by rw [has]; exact (eastward_lt a.west lon).le)

/-! ## Closed rows and grids -/

/-- A row that closes the ring covers one. It starts at the antimeridian if its first cell does or
ends where the first cell of the row does. -/
theorem ring_row (row column : ℤ) {k : ℕ} (hk : rowColumns row ≤ k + 1) :
    Ring (cover (Bucket.ofCell row column).bounds (cellRun row (column + 1) k))
      ∧ (cellWest row column = -180 ∨ cellWest row column = -180 + rowWidth row →
        (cover (Bucket.ofCell row column).bounds (cellRun row (column + 1) k) : Bounds ℚ).west
          = -180) := by
  have hn := le_rowColumns row
  obtain ⟨j, hj⟩ : ∃ j : ℕ, (j : ℤ) + 1 = rowColumns row :=
    ⟨(rowColumns row - 1).toNat, by omega⟩
  obtain ⟨i, rfl⟩ := Nat.exists_eq_add_of_le (show j ≤ k by omega)
  -- the cells up to the one that closes the ring, and then those beyond it
  obtain ⟨hspan, hwest⟩ := west_span_closed row column hj
  obtain ⟨hwf, -⟩ := lat_cover_row row column j
  have hring : Ring (cover (Bucket.ofCell row column).bounds (cellRun row (column + 1) j)) := by
    refine ⟨hwf, hspan, ?_⟩
    rw [hwest]
    split
    · exact .inl rfl
    · exact edge_cellWest row column
  have hcells : ∀ cell ∈ cellRun row (column + 1 + j) i,
      ∃ row column, Bucket.ofCell row column = cell := by
    intro cell hcell
    obtain ⟨c, -, rfl⟩ := mem_cellRun.1 hcell
    exact ⟨row, column + 1 + j + c, rfl⟩
  obtain ⟨hrest, hstart⟩ := hring.cover_cells hcells
  rw [cellRun_add, cover_append]
  refine ⟨hrest, fun h => hstart (.inl ?_)⟩
  rw [hwest]
  rcases h with h | h
  · rw [h, ite_self]
  · rw [if_pos h]

/-- The cells of some rows are cells of the globe. -/
theorem exists_ofCell_of_mem {columns k : ℕ} {cell : Bucket}
    (h : cell ∈ cellRows row column columns k) :
    ∃ row column, Bucket.ofCell row column = cell := by
  obtain ⟨r, -, c, -, rfl⟩ := mem_cellRows.1 h
  exact ⟨row + r, column + c, rfl⟩

/-- A whole row has a cell that starts at the antimeridian. -/
theorem exists_cellWest_eq (row column : ℤ) :
    ∃ c : ℕ, (c : ℤ) < rowColumns row ∧ cellWest row (column + c) = -180 := by
  have hn := le_rowColumns row
  have hc0 := Int.emod_nonneg (-column) (show rowColumns row ≠ 0 by omega)
  have hc1 := Int.emod_lt_of_pos (-column) (show 0 < rowColumns row by omega)
  refine ⟨(-column % rowColumns row).toNat, by omega, ?_⟩
  have hzero : (column + -column % rowColumns row) % rowColumns row = 0 := by
    rw [Int.add_emod_emod, add_neg_cancel, Int.zero_emod]
  unfold cellWest cellEighth
  rw [Int.toNat_of_nonneg hc0, hzero]
  norm_num

/-- The rectangle of a closed block is a ring. -/
theorem Block.ring (h : Block row column grid) (hfull : rowColumns row ≤ grid.columns) :
    Ring grid.bounds := by
  have hpos := h.columns_pos
  obtain ⟨hring, -⟩ := ring_row row column
    (show rowColumns row ≤ ((grid.columns - 1 : ℕ) : ℤ) + 1 by omega)
  rw [h.bounds_eq]
  exact (hring.cover_cells fun cell hcell => exists_ofCell_of_mem hcell).1

/-- A block that goes around the globe is 360 degrees wide. -/
theorem Block.columns_lt (h : Block row column grid) (hnarrow : grid.bounds.width < 360) :
    (grid.columns : ℤ) < rowColumns row := by
  by_contra hfull
  have hring := h.ring (not_lt.1 hfull)
  unfold Bounds.width at hnarrow
  rw [h.wellFormed_bounds.isEmpty_eq_false, if_neg (by decide), hring.span_eq] at hnarrow
  exact lt_irrefl _ hnarrow

/-- A closed block of two rows or more starts at the antimeridian. -/
theorem Block.west_of_next_row (h : Block row column grid)
    (hfull : rowColumns row ≤ grid.columns) (hrows : grid.rows ≠ 1) :
    grid.bounds.west = -180 := by
  have hpos := h.columns_pos
  have hrpos := h.rows_pos
  obtain ⟨hring, -⟩ := ring_row row column
    (show rowColumns row ≤ ((grid.columns - 1 : ℕ) : ℤ) + 1 by omega)
  have hunits := h.units_north 0 (by omega)
  rw [Nat.cast_zero, add_zero] at hunits
  obtain ⟨c, hc, hstart⟩ := exists_cellWest_eq row column
  rw [h.bounds_eq]
  refine (hring.cover_cells fun cell hcell => exists_ofCell_of_mem hcell).2 (.inr ?_)
  refine ⟨Bucket.ofCell (row + 1) (column + c), ?_, ?_⟩
  · refine mem_cellRows.2 ⟨0, by omega, c, by omega, ?_⟩
    rw [Nat.cast_zero, add_zero]
  · rw [(west_span_bounds hunits (column + c)).1]
    exact hstart

end Orthomosaic.BucketGrid
