import Orthomosaic.Proofs.Bucket.Numbering
import Orthomosaic.Proofs.Mosaic.Coverage
import Orthomosaic.Proofs.Mosaic.RingCover

/-!
# Rectangles of whole cells

A rectangle whose edges are those of a block of cells has them all on borders, where a lookup finds
the neighbour. The inset decides: it is less than half a cell, so the corner that is looked up lies in
the first cell, and every row and every column but the last stops short of the target by more than the
tolerance. So the grid of the rectangle of a block that leaves a gap is the block
(`Block.resolve_bounds`).
-/

namespace Orthomosaic.BucketGrid

open Scalar

variable {row column : ℤ} {grid : BucketGrid ℚ}

/-! ## The target -/

/-- The rectangle of a block is large enough for the whole inset on every side. -/
theorem Block.targetOf_bounds (h : Block row column grid)
    (hgap : (grid.columns : ℤ) < rowColumns row) :
    targetOf grid.bounds
      = ⟨normalizeLon (cellWest row column + edgeInset),
        grid.columns * rowWidth row - 2 * edgeInset,
        rowSouth row + edgeInset, rowSouth (row + grid.rows) - edgeInset⟩ := by
  have hinset := edgeInset_lt
  have hw := le_rowWidth row
  have hcolumns : (1 : ℚ) ≤ grid.columns := by exact_mod_cast h.columns_pos
  have hrows : (1 : ℚ) ≤ grid.rows := by exact_mod_cast h.rows_pos
  obtain ⟨hwest, hspan⟩ := h.west_span_open hgap
  obtain ⟨hsouth, hnorth⟩ := h.south_north
  have hlon : min edgeInset (grid.columns * rowWidth row / 2) = edgeInset :=
    min_eq_left (by nlinarith)
  have hlat : min edgeInset ((rowSouth (row + grid.rows) - rowSouth row) / 2) = edgeInset := by
    refine min_eq_left ?_
    unfold rowSouth
    push_cast
    linarith
  unfold targetOf
  rw [Bounds.shrunk_eq h.wellFormed_bounds, hwest, hspan, hsouth, hnorth, hlon, hlat]

/-- The corner of the target lies in the first cell. -/
theorem Block.originOf_bounds (h : Block row column grid)
    (hgap : (grid.columns : ℤ) < rowColumns row) :
    originOf grid.bounds = Bucket.ofCell row column := by
  have hinset := edgeInset_pos
  have hinset' := edgeInset_lt
  have hsnap := snapTolerance_eq
  have hw := le_rowWidth row
  have hpos := h.rows_pos
  have hend := h.row_add_le
  unfold originOf
  rw [h.targetOf_bounds hgap]
  refine Bucket.containing_of_interior h.row_nonneg (by omega) ?_ ?_ hinset.le ?_
    (sameMeridian_normalizeLon _).symm
  · exact le_add_of_nonneg_right hinset.le
  · rw [rowSouth_succ]
    linarith
  · linarith

/-! ## The two loops -/

/-- A row that leaves a gap reaches the target exactly when it has all the columns. -/
theorem Block.reachesEastOf_iff (h : Block row column grid)
    (hgap : (grid.columns : ℤ) < rowColumns row) {k : ℕ} (hk : k < grid.columns) :
    (coveredEast grid.bounds k).reachesEastOf (targetOf grid.bounds) = true
      ↔ k = grid.columns - 1 := by
  have hinset := edgeInset_pos
  have hinset' := edgeInset_lt
  have htol := Bounds.tolerance_eq
  have hsnap := snapTolerance_pos
  have hw := le_rowWidth row
  have hpos := h.rows_pos
  have hend := h.row_add_le
  have hopen : ((k + 1 : ℕ) : ℤ) < rowColumns row := by
    push_cast
    omega
  obtain ⟨hwf, -⟩ := lat_cover_row row column k
  obtain ⟨hwest, hspan⟩ := west_span_row column (show (k : ℤ) + 1 < rowColumns row by omega)
  have hlon : SameMeridian (cellWest row column + edgeInset) (targetOf grid.bounds).west := by
    rw [h.targetOf_bounds hgap]
    exact (sameMeridian_normalizeLon _).symm
  rw [coveredEast_eq h.row_nonneg (by omega) (h.originOf_bounds hgap),
    Bounds.reachesEastOf_iff hwf (wellFormed_targetOf h.wellFormed_bounds),
    lonPosition_open hwest hspan hopen (by linarith) (by linarith) hlon, hspan,
    h.targetOf_bounds hgap]
  push_cast
  constructor
  · intro hreach
    by_contra hother
    have hshort : (k : ℚ) + 2 ≤ grid.columns := by
      exact_mod_cast (show k + 2 ≤ grid.columns by omega)
    nlinarith
  · rintro rfl
    have hcount : ((grid.columns - 1 : ℕ) : ℚ) + 1 = grid.columns := by
      exact_mod_cast (show grid.columns - 1 + 1 = grid.columns by omega)
    rw [hcount]
    linarith

/-- The rows of a block are rows of the globe of one width. -/
theorem Block.rows_north (h : Block row column grid) :
    ∀ j < grid.rows - 1, row + j + 1 < 1440 ∧ rowUnits (row + j + 1) = rowUnits row := by
  intro j hj
  have hend := h.row_add_le
  have hunits := h.units_north j hj
  rw [add_right_comm] at hunits
  exact ⟨by omega, hunits⟩

/-- Some rows reach the target exactly when they are all of them. -/
theorem Block.reachesNorthOf_iff (h : Block row column grid)
    (hgap : (grid.columns : ℤ) < rowColumns row) {k : ℕ} (hk : k < grid.rows) :
    (cover (coveredEast grid.bounds (grid.columns - 1))
        (northOf ℚ grid.columns (originOf grid.bounds) k)).reachesNorthOf (targetOf grid.bounds)
          = true
      ↔ k = grid.rows - 1 := by
  have hinset := edgeInset_pos
  have hinset' := edgeInset_lt
  have htol := Bounds.tolerance_eq
  have hend := h.row_add_le
  obtain ⟨hwf, hs, hn⟩ := lat_cover_row row column (grid.columns - 1)
  obtain ⟨-, hnorth⟩ := lat_cover_cellRows hwf hs hn column h.columns_pos k
  have hrows : ∀ j < k, row + j + 1 < 1440 ∧ rowUnits (row + j + 1) = rowUnits row :=
    fun j hj => h.rows_north j (by omega)
  rw [coveredEast_eq h.row_nonneg (by omega) (h.originOf_bounds hgap), h.originOf_bounds hgap,
    northOf_ofCell h.row_nonneg column _ hrows,
    Bounds.reachesNorthOf_iff (wellFormed_cover hwf (wellFormed_cellRows _ _ _ _)), hnorth,
    h.targetOf_bounds hgap]
  unfold rowSouth
  push_cast
  constructor
  · intro hreach
    by_contra hother
    have hshort : (k : ℚ) + 2 ≤ grid.rows := by
      exact_mod_cast (show k + 2 ≤ grid.rows by omega)
    linarith
  · rintro rfl
    have hcount : ((grid.rows - 1 : ℕ) : ℚ) + 1 = grid.rows := by
      exact_mod_cast (show grid.rows - 1 + 1 = grid.rows by omega)
    linarith

/-! ## The grid of a block -/

/-- The loops find the cells of a block that leaves a gap in its own rectangle. -/
theorem Block.resolved_bounds (h : Block row column grid)
    (hgap : (grid.columns : ℤ) < rowColumns row) : Resolved grid.bounds grid := by
  have hcolumns := h.columns_pos
  have hpos := h.rows_pos
  have hend := h.row_add_le
  have h0 := h.row_nonneg
  have horigin := h.originOf_bounds hgap
  have hrows := h.rows_north
  have hcovered := coveredEast_eq h0 (by omega) horigin (grid.columns - 1)
  have hturn := rowColumns_mul_rowUnits row
  have hunits := rowUnits_pos row
  have hmax : maxGridExtent = 4096 := rfl
  refine
    { isEmpty_eq_false := h.wellFormed_bounds.isEmpty_eq_false
      columns_pos := hcolumns
      rows_pos := hpos
      columns_le := ?_
      rows_le := by omega
      cells_eq := ?_
      bounds_eq := ?_
      reaches_east := (h.reachesEastOf_iff hgap (by omega)).2 rfl
      not_reaches_east := ?_
      reaches_north := ?_
      not_reaches_north := ?_
      width_le := ?_ }
  · have : (grid.columns : ℤ) < 2880 := by nlinarith
    omega
  · rw [horigin, eastOf_ofCell h0 (by omega), northOf_ofCell h0 column _ hrows, h.cells_eq]
    exact cellRows_eq_cons row column hcolumns hpos
  · rw [hcovered, horigin, northOf_ofCell h0 column _ hrows]
    exact h.bounds_eq
  · intro k hk
    rw [← Bool.not_eq_true, h.reachesEastOf_iff hgap (by omega)]
    omega
  · have hreach := (h.reachesNorthOf_iff hgap (show grid.rows - 1 < grid.rows by omega)).2 rfl
    rw [hcovered, horigin, northOf_ofCell h0 column _ hrows, ← h.bounds_eq] at hreach
    exact hreach
  · intro k hk
    rw [← Bool.not_eq_true, h.reachesNorthOf_iff hgap (by omega)]
    omega
  · intro k hk
    have hbefore : ∀ j < k + 1, row + j + 1 < 1440 ∧ rowUnits (row + j + 1) = rowUnits row :=
      fun j hj => hrows j (by omega)
    have hsame := (hrows k hk).2
    rw [horigin, startNorth_ofCell h0 column hbefore, Bucket.width_ofCell, Bucket.width_ofCell,
      Nat.cast_succ, ← add_assoc, rowWidth_congr hsame, sub_self, magnitude_eq_abs, abs_zero,
      not_lt]
    exact Bounds.tolerance_pos.le

/-- The block of some rows and columns. -/
def blockOf (row column : ℤ) (columns rows : ℕ) : BucketGrid ℚ where
  cells := cellRows row column columns rows
  columns := columns
  rows := rows
  bounds := cover (cover (Bucket.ofCell row column).bounds (cellRun row (column + 1) (columns - 1)))
    (cellRows (row + 1) column columns (rows - 1))

/-- Rows of the globe of one width make a block. -/
theorem block_blockOf (column : ℤ) {columns rows : ℕ} (hcolumns : 0 < columns) (hrows : 0 < rows)
    (h0 : 0 ≤ row) (h1 : row + rows ≤ 1440)
    (hunits : ∀ r < rows, rowUnits (row + r) = rowUnits row) :
    Block row column (blockOf row column columns rows) :=
  ⟨hcolumns, hrows, h0, h1, hunits, rfl, rfl⟩

/-- The rectangle of a block that leaves a gap. -/
theorem Block.bounds_open (h : Block row column grid)
    (hgap : (grid.columns : ℤ) < rowColumns row) :
    grid.bounds
      = ⟨cellWest row column, grid.columns * rowWidth row, rowSouth row,
        rowSouth row + grid.rows / 8⟩ := by
  obtain ⟨hwest, hspan⟩ := h.west_span_open hgap
  obtain ⟨hsouth, hnorth⟩ := h.south_north
  have hheight : rowSouth (row + grid.rows) = rowSouth row + grid.rows / 8 := by
    unfold rowSouth
    push_cast
    ring
  rw [← hwest, ← hspan, ← hheight, ← hsouth, ← hnorth]

/-- The width at the latitude of the centre of a row. -/
theorem bucketSpan_center (row column : ℤ) (r : ℕ) :
    (bucketSpan ((Bucket.ofCell row column).centerLat + (r : ℚ) * bucketHeight) : ℚ)
      = rowWidth (row + r) := by
  have hrow : rowOf ((Bucket.ofCell row column).centerLat + (r : ℚ) * bucketHeight) = row + r := by
    rw [Bucket.centerLat_ofCell, Bucket.bucketHeight_eq]
    refine rowOf_eq ?_ ?_ <;> unfold rowSouth <;> push_cast <;> linarith
  rw [bucketSpan_eq, hrow]
  rfl

/-- A rectangle with the south-western corner of a canonical bucket, a whole number of its widths wide
but not around the globe, and as high as some rows of this width has the grid of exactly these
buckets, and shows what was asked for. Hence the rectangle of any grid that leaves a gap has this
grid again. -/
theorem resolve_whole_buckets :
    (∀ b : Bucket, b.Canonical → ∀ k m : ℕ, 1 ≤ k → (k : ℚ) * b.width < 360 → 1 ≤ m →
        b.south + (m : ℚ) / 8 ≤ 90 →
        (∀ r < m, (bucketSpan (b.centerLat + (r : ℚ) * bucketHeight) : ℚ) = b.width) →
        ∃ grid, resolve (⟨b.west, k * b.width, b.south, b.south + m / 8⟩ : Bounds ℚ)
            = .ok (some grid)
          ∧ grid.columns = k ∧ grid.rows = m ∧ grid.cells.head? = some b
          ∧ (∀ r < m, ∀ c < k, grid.cell? r c = some (b.sibling ℚ c r))
          ∧ grid.bounds = ⟨b.west, k * b.width, b.south, b.south + m / 8⟩)
      ∧ ∀ (desired : Bounds ℚ) (grid : BucketGrid ℚ), resolve desired = .ok (some grid) →
        grid.bounds.width < 360 → resolve grid.bounds = .ok (some grid) := by
  constructor
  · intro b hb k m hk hturn hm hpole hwidths
    obtain ⟨row, column, h0, h1, rfl, hwest, hsouth, hwidth⟩ := hb.exists_cell
    rw [← hwest, ← hsouth, ← hwidth]
    rw [← hsouth] at hpole
    rw [← hwidth] at hturn hwidths
    have hunits : ∀ r < m, rowUnits (row + r) = rowUnits row := by
      intro r hr
      have hsame := (bucketSpan_center row column r).symm.trans (hwidths r hr)
      unfold rowWidth at hsame
      have : (rowUnits (row + r) : ℚ) = rowUnits row := by linarith
      exact_mod_cast this
    have hend : row + m ≤ 1440 := by
      unfold rowSouth at hpole
      have : ((row + m : ℤ) : ℚ) ≤ (1440 : ℤ) := by
        push_cast
        linarith
      exact_mod_cast this
    have hgap : (k : ℤ) < rowColumns row := by
      have hw := le_rowWidth row
      have : (k : ℚ) < rowColumns row := by
        refine lt_of_mul_lt_mul_right ?_ (show 0 ≤ rowWidth row by linarith)
        rw [rowColumns_mul_rowWidth]
        exact hturn
      exact_mod_cast this
    have hblock := block_blockOf column hk hm h0 hend hunits
    have hbounds := hblock.bounds_open hgap
    refine ⟨blockOf row column k m, ?_, rfl, rfl, ?_, fun r hr c hc => ?_, hbounds⟩
    · exact hbounds ▸ (hblock.resolved_bounds hgap).resolve_eq
    · obtain ⟨rest, hcells, -⟩ := hblock.bounds_eq_cover
      rw [hcells]
      rfl
    · have hclamp : Bucket.clampRow (row + r) = row + r :=
        Bucket.clampRow_of_mem (by omega) (by omega)
      rw [hblock.cell?_eq hr hc, Bucket.sibling_ofCell column c (by rw [hclamp]; exact hunits r hr),
        hclamp]
  · intro desired grid h hnarrow
    obtain ⟨row, column, hblock⟩ := (resolved_of_resolve h).exists_block_of_any
    exact (hblock.resolved_bounds (hblock.columns_lt hnarrow)).resolve_eq

/-- All rows between the last change of widths and the north pole, two columns across the
antimeridian. -/
theorem resolve_whole_buckets_at_pole :
    (⟨168, 89, 0, 0⟩ : Bucket).Canonical
      ∧ ∃ grid, resolve (⟨168, 24, 89, 90⟩ : Bounds ℚ) = .ok (some grid)
        ∧ grid.columns = 2 ∧ grid.rows = 8 ∧ grid.cells.head? = some ⟨168, 89, 0, 0⟩
        ∧ grid.cell? 7 1 = some ⟨-180, 89, 0, 7⟩ ∧ grid.bounds = ⟨168, 24, 89, 90⟩
        ∧ grid.bounds.width < 360 ∧ resolve grid.bounds = .ok (some grid) := by
  have hb : (⟨168, 89, 0, 0⟩ : Bucket).Canonical := by decide +kernel
  have hrect : (⟨(⟨168, 89, 0, 0⟩ : Bucket).west, (2 : ℕ) * (⟨168, 89, 0, 0⟩ : Bucket).width,
      (⟨168, 89, 0, 0⟩ : Bucket).south, (⟨168, 89, 0, 0⟩ : Bucket).south + (8 : ℕ) / 8⟩ : Bounds ℚ)
        = ⟨168, 24, 89, 90⟩ :=
    (Bounds.mk.injEq ..).mpr (by decide +kernel)
  obtain ⟨hwhole, hagain⟩ := resolve_whole_buckets
  obtain ⟨grid, hgrid, hcolumns, hrows, hhead, hcells, hbounds⟩ :=
    hwhole ⟨168, 89, 0, 0⟩ hb 2 8 (by decide) (by decide +kernel) (by decide) (by decide +kernel)
      (by decide +kernel)
  rw [hrect] at hgrid hbounds
  have hnarrow : grid.bounds.width < 360 := by
    rw [hbounds]
    decide +kernel
  refine ⟨hb, grid, hgrid, hcolumns, hrows, hhead, ?_, hbounds, hnarrow,
    hagain _ grid hgrid hnarrow⟩
  rw [hcells 7 (by decide) 1 (by decide)]
  decide +kernel

end Orthomosaic.BucketGrid
