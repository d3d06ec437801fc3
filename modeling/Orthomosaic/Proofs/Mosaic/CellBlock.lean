import Orthomosaic.Proofs.Bounds.Union
import Orthomosaic.Proofs.Mosaic.CellRun

/-!
# Grids as blocks of cells

In exact arithmetic the cells of a resolved grid are a block of the rows and columns of the globe:
the origin is the cell of the target's south-western corner, the row runs on from column to column,
and the rows follow one another up to the north pole at most. `Resolved.exists_block` states it. The
northern edge of what is covered tells after each row whether the loop goes on, so the latitudes of
covers come first.
-/

namespace Orthomosaic.BucketGrid

open Scalar

/-! ## What some cells cover -/

variable {b : Bounds ℚ} {cells : List Bucket}

/-- Covering with well-formed rectangles keeps the stored form. -/
theorem wellFormed_cover (hb : b.WellFormed)
    (hcells : ∀ cell ∈ cells, (cell.bounds : Bounds ℚ).WellFormed) :
    (cover b cells).WellFormed := by
  induction cells generalizing b with
  | nil => exact hb
  | cons cell cells ih =>
    refine ih (hb.absorb (hcells cell (List.mem_cons_self ..))) ?_
    exact fun other hother => hcells other (List.mem_cons_of_mem cell hother)

/-- What is near the rectangle that is grown stays near it. -/
theorem near_cover_left {ε lon lat : ℚ} (hε : 0 ≤ ε) (hb : b.WellFormed)
    (hcells : ∀ cell ∈ cells, (cell.bounds : Bounds ℚ).WellFormed) (h : b.Near ε lon lat) :
    (cover b cells).Near ε lon lat := by
  induction cells generalizing b with
  | nil => exact h
  | cons cell cells ih =>
    have hcell := hcells cell (List.mem_cons_self ..)
    refine ih (hb.absorb hcell) ?_ (h.absorb_left hε hb hcell)
    exact fun other hother => hcells other (List.mem_cons_of_mem cell hother)

/-- What is near one of the cells is near the rectangle that is grown by them. -/
theorem near_cover_right {ε lon lat : ℚ} {cell : Bucket} (hε : 0 ≤ ε) (hb : b.WellFormed)
    (hcells : ∀ cell ∈ cells, (cell.bounds : Bounds ℚ).WellFormed) (hmem : cell ∈ cells)
    (h : (cell.bounds : Bounds ℚ).Near ε lon lat) : (cover b cells).Near ε lon lat := by
  obtain ⟨first, second, rfl⟩ := List.append_of_mem hmem
  have hfirst : (cover b first).WellFormed :=
    wellFormed_cover hb fun other hother => hcells other (List.mem_append_left _ hother)
  have hcell := hcells cell hmem
  rw [cover_append, cover_cons]
  refine near_cover_left hε (hfirst.absorb hcell) ?_ (h.absorb_right hε hfirst hcell)
  exact fun other hother =>
    hcells other (List.mem_append_right first (List.mem_cons_of_mem cell hother))

/-- The cells of a run have well-formed rectangles. -/
theorem wellFormed_cellRun (row column : ℤ) (k : ℕ) :
    ∀ cell ∈ cellRun row column k, (cell.bounds : Bounds ℚ).WellFormed := by
  intro cell hcell
  obtain ⟨c, -, rfl⟩ := mem_cellRun.1 hcell
  exact Bucket.wellFormed_bounds_ofCell row (column + c)

/-- The cells of some rows have well-formed rectangles. -/
theorem wellFormed_cellRows (row column : ℤ) (columns k : ℕ) :
    ∀ cell ∈ cellRows row column columns k, (cell.bounds : Bounds ℚ).WellFormed := by
  intro cell hcell
  obtain ⟨r, -, c, -, rfl⟩ := mem_cellRows.1 hcell
  exact Bucket.wellFormed_bounds_ofCell (row + r) (column + c)

/-- The latitudes that a rectangle and a run of cells cover. -/
theorem lat_cover_cellRun (hb : b.WellFormed) {row : ℤ} (hsouth : b.south ≤ rowSouth row)
    (hnorth : b.north ≤ rowSouth (row + 1)) (column : ℤ) {k : ℕ} (hk : 0 < k) :
    (cover b (cellRun row column k)).south = b.south
      ∧ (cover b (cellRun row column k)).north = rowSouth (row + 1) := by
  have habsorb : ∀ {a : Bounds ℚ} (c : ℤ), a.WellFormed → a.south = b.south →
      a.north ≤ rowSouth (row + 1) →
      (a.absorb (Bucket.ofCell row c).bounds).south = b.south
        ∧ (a.absorb (Bucket.ofCell row c).bounds).north = rowSouth (row + 1) := by
    intro a c ha hs hn
    rw [Bounds.absorb_eq ha.isEmpty_eq_false
      (Bucket.wellFormed_bounds_ofCell row c).isEmpty_eq_false, Bucket.bounds_ofCell]
    exact ⟨by rw [hs]; exact min_eq_left hsouth, max_eq_right hn⟩
  induction k with
  | zero => omega
  | succ k ih =>
    rw [cellRun_succ_last, cover_append, cover_cons, cover_nil]
    have hwf : (cover b (cellRun row column k)).WellFormed :=
      wellFormed_cover hb (wellFormed_cellRun row column k)
    -- the first cell may raise the northern edge, the others leave it
    rcases Nat.eq_zero_or_pos k with rfl | hpos
    · exact habsorb _ hb rfl hnorth
    · obtain ⟨hs, hn⟩ := ih hpos
      exact habsorb _ hwf hs hn.le

/-- The latitudes that a rectangle and some rows north of it cover. -/
theorem lat_cover_cellRows (hb : b.WellFormed) {row : ℤ} (hsouth : b.south = rowSouth row)
    (hnorth : b.north = rowSouth (row + 1)) (column : ℤ) {columns : ℕ} (hcolumns : 0 < columns)
    (k : ℕ) :
    (cover b (cellRows (row + 1) column columns k)).south = rowSouth row
      ∧ (cover b (cellRows (row + 1) column columns k)).north = rowSouth (row + 1 + k) := by
  induction k with
  | zero => exact ⟨hsouth, by rw [Nat.cast_zero, add_zero]; exact hnorth⟩
  | succ k ih =>
    obtain ⟨hs, hn⟩ := ih
    have hwf : (cover b (cellRows (row + 1) column columns k)).WellFormed :=
      wellFormed_cover hb (wellFormed_cellRows (row + 1) column columns k)
    have hle : rowSouth row ≤ rowSouth (row + 1 + k) := rowSouth_le (by omega)
    have hle' : rowSouth (row + 1 + k) ≤ rowSouth (row + 1 + k + 1) := rowSouth_le (by omega)
    rw [cellRows_succ_last, cover_append]
    obtain ⟨hs', hn'⟩ := lat_cover_cellRun hwf (hs.trans_le hle) (hn.trans_le hle') column hcolumns
    refine ⟨hs'.trans hs, hn'.trans ?_⟩
    congr 1
    push_cast
    ring

/-! ## Blocks -/

/-- A grid whose cells are a block of the rows and columns of the globe. -/
structure Block (row column : ℤ) (grid : BucketGrid ℚ) : Prop where
  columns_pos : 0 < grid.columns
  rows_pos : 0 < grid.rows
  row_nonneg : 0 ≤ row
  row_add_le : row + grid.rows ≤ 1440
  units_eq : ∀ r < grid.rows, rowUnits (row + r) = rowUnits row
  cells_eq : grid.cells = cellRows row column grid.columns grid.rows
  bounds_eq : grid.bounds
    = cover (cover (Bucket.ofCell row column).bounds (cellRun row (column + 1) (grid.columns - 1)))
      (cellRows (row + 1) column grid.columns (grid.rows - 1))

/-- The cell in a row and a column of a block. -/
theorem Block.cell?_eq {row column : ℤ} {grid : BucketGrid ℚ} (h : Block row column grid) {r c : ℕ}
    (hr : r < grid.rows) (hc : c < grid.columns) :
    grid.cell? r c = some (Bucket.ofCell (row + r) (column + c)) := by
  unfold cell?
  rw [if_pos ⟨hr, hc⟩, h.cells_eq]
  exact getElem?_cellRows row column hr hc

/-- The rectangle of a block covers all its cells. -/
theorem Block.bounds_eq_cover {row column : ℤ} {grid : BucketGrid ℚ} (h : Block row column grid) :
    ∃ rest, grid.cells = Bucket.ofCell row column :: rest
      ∧ grid.bounds = cover (Bucket.ofCell row column).bounds rest := by
  refine ⟨cellRun row (column + 1) (grid.columns - 1)
    ++ cellRows (row + 1) column grid.columns (grid.rows - 1), ?_, ?_⟩
  · rw [h.cells_eq]
    exact cellRows_eq_cons row column h.columns_pos h.rows_pos
  · rw [cover_append]
    exact h.bounds_eq

/-- What is near a cell of a block is near its rectangle. -/
theorem Block.near_bounds {row column : ℤ} {grid : BucketGrid ℚ} (h : Block row column grid)
    {ε lon lat : ℚ} {cell : Bucket} (hε : 0 ≤ ε) (hmem : cell ∈ grid.cells)
    (hnear : (cell.bounds : Bounds ℚ).Near ε lon lat) : grid.bounds.Near ε lon lat := by
  obtain ⟨rest, hcells, hbounds⟩ := h.bounds_eq_cover
  have hall : ∀ other ∈ grid.cells, (other.bounds : Bounds ℚ).WellFormed := by
    rw [h.cells_eq]
    exact wellFormed_cellRows row column _ _
  rw [hcells] at hmem hall
  obtain ⟨hfirst, hrest⟩ := List.forall_mem_cons.1 hall
  rw [hbounds]
  rcases List.mem_cons.1 hmem with rfl | hlater
  · exact near_cover_left hε hfirst hrest hnear
  · exact near_cover_right hε hfirst hrest hlater hnear

/-! ## Resolved grids are blocks -/

variable {desired : Bounds ℚ} {grid : BucketGrid ℚ}

/-- The first row of a grid, seen as a run of cells. -/
theorem coveredEast_eq {row column : ℤ} (h0 : 0 ≤ row) (h1 : row < 1440)
    (horigin : originOf desired = Bucket.ofCell row column) (k : ℕ) :
    coveredEast desired k
      = cover (Bucket.ofCell row column).bounds (cellRun row (column + 1) k) := by
  unfold coveredEast
  rw [horigin, eastOf_ofCell h0 h1]

/-- The latitudes of a run of cells. -/
theorem lat_cover_row (row column : ℤ) (k : ℕ) :
    (cover (Bucket.ofCell row column).bounds (cellRun row (column + 1) k) : Bounds ℚ).WellFormed
      ∧ (cover (Bucket.ofCell row column).bounds (cellRun row (column + 1) k) : Bounds ℚ).south
        = rowSouth row
      ∧ (cover (Bucket.ofCell row column).bounds (cellRun row (column + 1) k) : Bounds ℚ).north
        = rowSouth (row + 1) := by
  have hwf := Bucket.wellFormed_bounds_ofCell row column
  have hs : ((Bucket.ofCell row column).bounds : Bounds ℚ).south = rowSouth row := by
    rw [Bucket.bounds_ofCell]
  have hn : ((Bucket.ofCell row column).bounds : Bounds ℚ).north = rowSouth (row + 1) := by
    rw [Bucket.bounds_ofCell]
  refine ⟨wellFormed_cover hwf (wellFormed_cellRun row (column + 1) k), ?_⟩
  rcases Nat.eq_zero_or_pos k with rfl | hk
  · exact ⟨hs, hn⟩
  · obtain ⟨hs', hn'⟩ := lat_cover_cellRun hwf hs.le hn.le (column + 1) hk
    exact ⟨hs'.trans hs, hn'⟩

/-- Rows whose widths differ by no more than the tolerance have one width. -/
theorem rowUnits_eq_of_width {row row' : ℤ}
    (h : ¬ Bounds.tolerance < magnitude (rowWidth row' - rowWidth row)) :
    rowUnits row' = rowUnits row := by
  rw [magnitude_eq_abs, not_lt, Bounds.tolerance_eq, abs_le] at h
  unfold rowWidth at h
  have hlow : ((-1 : ℤ) : ℚ) < (rowUnits row' - rowUnits row : ℤ) := by
    push_cast
    linarith
  have hhigh : ((rowUnits row' - rowUnits row : ℤ) : ℚ) < (1 : ℤ) := by
    push_cast
    linarith
  have : -1 < rowUnits row' - rowUnits row := by exact_mod_cast hlow
  have : rowUnits row' - rowUnits row < 1 := by exact_mod_cast hhigh
  omega

/-- While the northern edge of what is covered does not reach that of the target, there is a row
below the pole. -/
theorem Resolved.next_row_lt (h : Resolved desired grid) {row column : ℤ} (h0 : 0 ≤ row)
    (h1 : row < 1440) (hnorth : (targetOf desired).north ≤ 90 + Bounds.tolerance)
    (horigin : originOf desired = Bucket.ofCell row column) {j : ℕ} (hj : j < grid.rows - 1)
    (hbefore : ∀ i < j, row + i + 1 < 1440 ∧ rowUnits (row + i + 1) = rowUnits row) :
    row + j + 1 < 1440 := by
  have htol := Bounds.tolerance_pos
  have hshort := h.not_reaches_north j hj
  obtain ⟨hwf, hs, hn⟩ := lat_cover_row row column (grid.columns - 1)
  obtain ⟨-, hn'⟩ := lat_cover_cellRows hwf hs hn column h.columns_pos j
  rw [horigin, northOf_ofCell h0 column _ hbefore, coveredEast_eq h0 h1 horigin,
    ← Bool.not_eq_true, Bounds.reachesNorthOf_iff (wellFormed_cover hwf
      (wellFormed_cellRows (row + 1) column _ j)), hn', not_le] at hshort
  have hq : ((row + 1 + j : ℤ) : ℚ) < (1440 : ℤ) := by
    unfold rowSouth at hshort
    push_cast at hshort ⊢
    linarith
  have : row + 1 + j < 1440 := by exact_mod_cast hq
  omega

/-- The rows north of the first one are rows of the globe, as they go on no further than the target
does, and they have the width of the first, as each was compared with it. -/
theorem Resolved.rows_north (h : Resolved desired grid) {row column : ℤ} (h0 : 0 ≤ row)
    (h1 : row < 1440) (hnorth : (targetOf desired).north ≤ 90 + Bounds.tolerance)
    (horigin : originOf desired = Bucket.ofCell row column) (j : ℕ) (hj : j < grid.rows - 1) :
    row + j + 1 < 1440 ∧ rowUnits (row + j + 1) = rowUnits row := by
  induction j using Nat.strong_induction_on with
  | _ j ih =>
    -- where the row starts is known only once the rows before it are
    have hbefore : ∀ i < j, row + i + 1 < 1440 ∧ rowUnits (row + i + 1) = rowUnits row :=
      fun i hi => ih i hi (hi.trans hj)
    have hlt := h.next_row_lt h0 h1 hnorth horigin hj hbefore
    refine ⟨hlt, rowUnits_eq_of_width ?_⟩
    have hwidth := h.width_le j hj
    have hstep : startNorth ℚ (Bucket.ofCell row column) (j + 1)
        = (startNorth ℚ (Bucket.ofCell row column) j).sibling ℚ 0 1 :=
      Function.iterate_succ_apply' _ j _
    obtain ⟨column', hnext⟩ := Bucket.exists_sibling_ofCell (row + j) column 0 1
    rw [horigin, hstep, startNorth_ofCell h0 column hbefore, hnext,
      Bucket.width_ofCell, Bucket.width_ofCell, Bucket.clampRow_of_mem (by omega) hlt] at hwidth
    exact hwidth

/-- A resolved grid is a block of cells that starts at its origin. -/
theorem Resolved.block (h : Resolved desired grid) {row column : ℤ} (h0 : 0 ≤ row)
    (h1 : row < 1440) (hnorth : (targetOf desired).north ≤ 90 + Bounds.tolerance)
    (horigin : originOf desired = Bucket.ofCell row column) : Block row column grid := by
  have hrows := h.rows_north h0 h1 hnorth horigin
  have hcells := h.cells_eq
  have hbounds := h.bounds_eq
  rw [horigin, eastOf_ofCell h0 h1, northOf_ofCell h0 column _ hrows] at hcells
  rw [horigin, northOf_ofCell h0 column _ hrows, coveredEast_eq h0 h1 horigin] at hbounds
  obtain ⟨c, hc⟩ := Nat.exists_eq_add_of_le' h.columns_pos
  obtain ⟨r, hr⟩ := Nat.exists_eq_add_of_le' h.rows_pos
  refine ⟨h.columns_pos, h.rows_pos, h0, ?_, ?_, ?_, hbounds⟩
  · by_cases hone : r = 0
    · omega
    · have := (hrows (r - 1) (by omega)).1
      omega
  · intro i hi
    cases i with
    | zero => rw [Nat.cast_zero, add_zero]
    | succ i =>
      have := (hrows i (by omega)).2
      rw [Nat.cast_succ, ← add_assoc]
      exact this
  · rw [hcells, cellRows_eq_cons row column h.columns_pos h.rows_pos]

/-- A resolved grid is a block of cells, the first of which is the one found at the south-western
corner of the target. -/
theorem Resolved.exists_block (h : Resolved desired grid) (hsouth : -90 ≤ (targetOf desired).south)
    (hnorth : (targetOf desired).north ≤ 90) :
    ∃ row column, originOf desired = Bucket.ofCell row column
      ∧ Bucket.Located row column (targetOf desired).west (targetOf desired).south
      ∧ Block row column grid := by
  have htol := Bounds.tolerance_pos
  obtain ⟨row, column, hcell, hat⟩ := Bucket.containing_spec (targetOf desired).west hsouth
  exact ⟨row, column, hcell, hat, h.block hat.row_nonneg hat.row_lt (by linarith) hcell⟩

/-! ## Targets beyond the poles -/

/-- A union reaches no further north than its parts do. -/
theorem north_absorb_le {a : Bounds ℚ} {n : ℚ} (ha : a.north ≤ n) (hb : b.north ≤ n) :
    (a.absorb b).north ≤ n := by
  unfold Bounds.absorb
  split
  · exact ha
  · split
    · exact hb
    · dsimp only
      rw [greatest_eq_max]
      exact max_le ha hb

/-- What is covered reaches no further north than the cells do. -/
theorem north_cover_le {n : ℚ} (hb : b.north ≤ n)
    (hcells : ∀ cell ∈ cells, (cell.bounds : Bounds ℚ).north ≤ n) : (cover b cells).north ≤ n := by
  induction cells generalizing b with
  | nil => exact hb
  | cons cell cells ih =>
    obtain ⟨hcell, hrest⟩ := List.forall_mem_cons.1 hcells
    exact ih (north_absorb_le hb hcell) hrest

/-- A bucket that was looked up does not reach beyond the north pole. -/
theorem north_bounds_containing_le (lon lat : ℚ) :
    ((Bucket.containing lon lat).bounds : Bounds ℚ).north ≤ 90 := by
  obtain ⟨row, column, -, h1, hcell⟩ := Bucket.exists_globe_cell lon lat
  have hrow : ((row + 1 : ℤ) : ℚ) ≤ (1440 : ℤ) := by exact_mod_cast h1
  rw [hcell, Bucket.bounds_ofCell]
  unfold rowSouth
  push_cast at hrow ⊢
  linarith

/-- The steps eastward look buckets up. -/
theorem exists_containing_of_mem_eastOf {cell first : Bucket} {k : ℕ} (h : cell ∈ eastOf ℚ first k) :
    ∃ lon lat : ℚ, cell = Bucket.containing lon lat := by
  induction k generalizing first with
  | zero => cases h
  | succ k ih =>
    rcases List.mem_cons.1 h with rfl | hlater
    · exact ⟨_, _, rfl⟩
    · exact ih hlater

/-- The rows northward are looked up as well. -/
theorem exists_containing_of_mem_northOf {cell first : Bucket} {columns k : ℕ}
    (h : cell ∈ northOf ℚ columns first k) : ∃ lon lat : ℚ, cell = Bucket.containing lon lat := by
  induction k generalizing first with
  | zero => cases h
  | succ k ih =>
    rcases List.mem_append.1 h with hrow | hlater
    · obtain ⟨c, -, rfl⟩ := List.mem_map.1 hrow
      exact ⟨_, _, rfl⟩
    · exact ih hlater

/-- A target that was reached ends at the north pole, to within the tolerance. -/
theorem Resolved.target_north_le (h : Resolved desired grid) :
    (targetOf desired).north ≤ 90 + Bounds.tolerance := by
  have hnorth : grid.bounds.north ≤ 90 := by
    rw [h.bounds_eq]
    unfold coveredEast
    refine north_cover_le (north_cover_le (north_bounds_containing_le _ _) ?_) ?_
    · intro cell hcell
      obtain ⟨lon, lat, rfl⟩ := exists_containing_of_mem_eastOf hcell
      exact north_bounds_containing_le lon lat
    · intro cell hcell
      obtain ⟨lon, lat, rfl⟩ := exists_containing_of_mem_northOf hcell
      exact north_bounds_containing_le lon lat
  have hreach := h.reaches_north
  unfold Bounds.reachesNorthOf at hreach
  rw [Bool.and_eq_true, decide_eq_true_iff] at hreach
  linarith [hreach.2]

/-- Whatever rectangle it was found for, a resolved grid is a block of cells. -/
theorem Resolved.exists_block_of_any (h : Resolved desired grid) :
    ∃ row column, Block row column grid := by
  obtain ⟨row, column, h0, h1, hcell⟩ :=
    Bucket.exists_globe_cell (targetOf desired).west (targetOf desired).south
  exact ⟨row, column, h.block h0 h1 h.target_north_le hcell⟩

end Orthomosaic.BucketGrid
