import Orthomosaic.Proofs.Mosaic.Shape

/-!
# Texture coordinates and the canvas

The tile of a cell is painted into a block of the canvas that its row and column number name, while
texture coordinates come from the rectangle of the grid. The two agree exactly when that rectangle
starts where the first cell does. `Aligned` says when this is so: the grid leaves a gap, or it closes
the ring and is one row high or starts at the antimeridian anyway. On any other closed grid the
second row moves the western edge to the antimeridian, and the picture is turned against its
coordinates; `texCoord_center_iff` has both directions.
-/

namespace Orthomosaic.BucketGrid

open Scalar

/-- The centre of the block of a cell on the canvas, in shares of its width and height. -/
def blockCenter (grid : BucketGrid ℚ) (r c : ℕ) : ℚ × ℚ :=
  ((c + 1 / 2) / grid.columns, (grid.rows - r - 1 / 2) / grid.rows)

/-- The rectangle of a grid starts at its first cell: the grid leaves a gap, or its row closes the
ring once and there is no other row, or the first cell starts at the antimeridian. -/
def Aligned (grid : BucketGrid ℚ) (first : Bucket) : Prop :=
  grid.columns * first.width < (360 : ℚ)
    ∨ grid.columns * first.width = (360 : ℚ)
      ∧ (grid.rows = 1 ∨ (first.bounds : Bounds ℚ).west = -180)

variable {desired : Bounds ℚ} {grid : BucketGrid ℚ} {row column : ℤ}

/-! ## The coordinates of the centres -/

/-- The coordinate down of the centre of a cell. -/
theorem Block.texV_center (h : Block row column grid) {r : ℕ} (c : ℤ) :
    grid.bounds.texV ((Bucket.ofCell (row + r) c).centerLat)
      = (grid.rows - r - 1 / 2) / grid.rows := by
  have hrows : (1 : ℚ) ≤ grid.rows := by exact_mod_cast h.rows_pos
  obtain ⟨hs, hn⟩ := h.south_north
  have hheight : grid.bounds.north - grid.bounds.south = grid.rows / 8 := by
    rw [hs, hn]
    unfold rowSouth
    push_cast
    ring
  rw [Bounds.texV_eq (by rw [hheight, Bounds.tolerance_eq]; linarith), hheight, hn,
    Bucket.centerLat_ofCell]
  unfold rowSouth
  push_cast
  field_simp
  ring

/-- The coordinate across of the centre of a cell, from the way east to it. -/
theorem texU_center {b : Bounds ℚ} {r c : ℤ} {d : ℚ} (h0 : Bounds.tolerance < d) (hd : d ≤ b.span)
    (h360 : d < 360)
    (hlon : SameMeridian (b.west + d) (cellWest r c + rowWidth r / 2)) :
    b.texU ((Bucket.ofCell r c).centerLon) = d / b.span := by
  rw [Bucket.centerLon_ofCell]
  exact Bounds.texU_eq h0 hd h360 hlon

/-- Where the rectangle of a block starts at the first cell and is as many widths long as there are
columns, every cell has the coordinates of its block. -/
theorem Block.texCoord_center (h : Block row column grid)
    (hwest : grid.bounds.west = cellWest row column)
    (hspan : grid.bounds.span = grid.columns * rowWidth row) (hturn : grid.bounds.span ≤ 360)
    {r c : ℕ} (hr : r < grid.rows) (hc : c < grid.columns) :
    grid.bounds.texCoord ((Bucket.ofCell (row + r) (column + c)).centerLon)
      ((Bucket.ofCell (row + r) (column + c)).centerLat) = blockCenter grid r c := by
  have hw := le_rowWidth row
  have htol := Bounds.tolerance_eq
  have hunits := h.units_eq r hr
  have hcq : (c : ℚ) + 1 ≤ grid.columns := by exact_mod_cast hc
  have hc0 : (0 : ℚ) ≤ c := Nat.cast_nonneg c
  have hend : ((c : ℚ) + 1 / 2) * rowWidth row < grid.columns * rowWidth row := by nlinarith
  have hcenter : SameMeridian (grid.bounds.west + ((c : ℚ) + 1 / 2) * rowWidth row)
      (cellWest (row + r) (column + c) + rowWidth (row + r) / 2) := by
    have hcell := (sameMeridian_cellWest_add row column c).add_right (rowWidth row / 2)
    rw [hwest, Bucket.cellWest_congr hunits, rowWidth_congr hunits, add_mul, ← add_assoc]
    rw [Int.cast_natCast] at hcell
    rw [one_div_mul_eq_div]
    exact hcell
  rw [h.wellFormed_bounds.texCoord_eq, h.texV_center, texU_center (by nlinarith) (by rw [hspan]; exact hend.le)
    (by linarith) hcenter, hspan, mul_div_mul_right _ _ (by linarith)]
  rfl

/-! ## The western edge of a closed grid -/

/-- A grid of one row covers what its row does. -/
theorem Block.bounds_of_one_row (h : Block row column grid) (hrows : grid.rows = 1) :
    grid.bounds
      = cover (Bucket.ofCell row column).bounds (cellRun row (column + 1) (grid.columns - 1)) := by
  have hbounds := h.bounds_eq
  rw [hrows] at hbounds
  exact hbounds

/-- The rectangle of a grid starts at the first cell exactly when the grid is open, or closes the
ring once and is one row high or starts at the antimeridian. -/
theorem Resolved.west_eq_iff (h : Resolved desired grid) (hdesired : desired.WellFormed)
    (hblock : Block row column grid) (horigin : originOf desired = Bucket.ofCell row column)
    (hat : Bucket.Located row column (targetOf desired).west (targetOf desired).south) :
    grid.bounds.west = cellWest row column
      ↔ (grid.columns : ℤ) < rowColumns row
        ∨ (grid.columns : ℤ) = rowColumns row
          ∧ (grid.rows = 1 ∨ cellWest row column = -180) := by
  have hpos := hblock.columns_pos
  rcases lt_or_ge (grid.columns : ℤ) (rowColumns row) with hgap | hfull
  · exact ⟨fun _ => .inl hgap, fun _ => (hblock.west_span_open hgap).1⟩
  -- so the closing cell keeps the edge, and only cells after it can move it
  have hne := h.cellWest_ne hdesired hblock horigin hat hfull
  obtain ⟨hring, hstart⟩ := ring_row row column
    (show rowColumns row ≤ ((grid.columns - 1 : ℕ) : ℤ) + 1 by omega)
  constructor
  · intro hwest
    have honce : (grid.columns : ℤ) = rowColumns row := by
      by_contra hother
      have hmoved := h.row_west_ne hdesired hblock horigin hne (by omega)
      by_cases hrows : grid.rows = 1
      · rw [hblock.bounds_of_one_row hrows] at hwest
        exact hmoved hwest
      · rw [hblock.west_of_next_row hfull hrows] at hwest
        exact hmoved ((hstart (.inl hwest.symm)).trans hwest)
    refine .inr ⟨honce, ?_⟩
    by_cases hrows : grid.rows = 1
    · exact .inl hrows
    · rw [hblock.west_of_next_row hfull hrows] at hwest
      exact .inr hwest.symm
  · rintro (hgap | ⟨honce, hcase⟩)
    · omega
    by_cases hrows : grid.rows = 1
    · rw [hblock.bounds_of_one_row hrows, (west_span_closed row column (by omega)).2, if_neg hne]
    · rw [hblock.west_of_next_row hfull hrows, hcase.resolve_left hrows]

/-! ## Agreement of coordinates and canvas -/

/-- Whether a grid is aligned, in numbers of columns. -/
theorem aligned_ofCell_iff (grid : BucketGrid ℚ) (row column : ℤ) :
    Aligned grid (Bucket.ofCell row column)
      ↔ (grid.columns : ℤ) < rowColumns row
        ∨ (grid.columns : ℤ) = rowColumns row
          ∧ (grid.rows = 1 ∨ cellWest row column = -180) := by
  have hw : (0 : ℚ) < rowWidth row := by linarith [le_rowWidth row]
  have hturn := rowColumns_mul_rowWidth row
  have hlt : (grid.columns : ℚ) * rowWidth row < 360 ↔ (grid.columns : ℤ) < rowColumns row := by
    rw [← hturn, mul_lt_mul_iff_left₀ hw]
    exact_mod_cast Iff.rfl
  have heq : (grid.columns : ℚ) * rowWidth row = 360 ↔ (grid.columns : ℤ) = rowColumns row := by
    rw [← hturn, mul_left_inj' hw.ne']
    exact_mod_cast Iff.rfl
  unfold Aligned
  rw [Bucket.width_ofCell, Bucket.bounds_ofCell, hlt, heq]

/-- A row that goes on beyond its first cell has that cell in two blocks, so in one of them it has
other coordinates. -/
theorem Block.exists_texU_ne (h : Block row column grid) (hmore : rowColumns row < grid.columns) :
    ∃ c < grid.columns, grid.bounds.texU ((Bucket.ofCell row (column + c)).centerLon)
      ≠ (c + 1 / 2) / grid.columns := by
  have hn := le_rowColumns row
  have hpos : (0 : ℚ) < grid.columns := by exact_mod_cast h.columns_pos
  obtain ⟨k, hk⟩ : ∃ k : ℕ, (k : ℤ) = rowColumns row := ⟨(rowColumns row).toNat, by omega⟩
  by_cases hfirst : grid.bounds.texU ((Bucket.ofCell row column).centerLon)
      = (((0 : ℕ) : ℚ) + 1 / 2) / grid.columns
  · refine ⟨k, by omega, fun hagain => ?_⟩
    have hkpos : (0 : ℚ) < k := by exact_mod_cast (show 0 < k by omega)
    rw [ofCell_turn hk, hfirst, div_left_inj' hpos.ne', Nat.cast_zero] at hagain
    linarith
  · refine ⟨0, h.columns_pos, ?_⟩
    rw [Nat.cast_zero, add_zero]
    exact hfirst

/-- The first cell of a closed row has other coordinates than its block when the rectangle starts at
the antimeridian and the cell does not: the way to its centre is longer. -/
theorem Block.texU_ne (h : Block row column grid) (honce : (grid.columns : ℤ) = rowColumns row)
    (hstart : grid.bounds.west = -180) (hne : cellWest row column ≠ -180) :
    grid.bounds.texU ((Bucket.ofCell row column).centerLon)
      ≠ (((0 : ℕ) : ℚ) + 1 / 2) / grid.columns := by
  intro hfirst
  have hw := le_rowWidth row
  have hw' := rowWidth_le row
  have htol := Bounds.tolerance_eq
  have hpos : (0 : ℚ) < grid.columns := by exact_mod_cast h.columns_pos
  have hspan := (h.ring honce.symm.le).span_eq
  have hlow := le_cellWest row column
  have hhigh := cellWest_add_rowWidth_le row column
  have hcenter : SameMeridian
      (grid.bounds.west + (cellWest row column + 180 + rowWidth row / 2))
      (cellWest row column + rowWidth row / 2) := by
    rw [hstart]
    exact ⟨0, by push_cast; ring⟩
  have hturn : (grid.columns : ℚ) * rowWidth row = 360 := by
    rw [← rowColumns_mul_rowWidth row]
    congr 1
    exact_mod_cast honce
  rw [Nat.cast_zero, texU_center (by linarith) (by linarith) (by linarith) hcenter, hspan, ← hturn,
    zero_add, div_eq_div_iff (by linarith) hpos.ne'] at hfirst
  have hshare : cellWest row column + 180 + rowWidth row / 2 = rowWidth row / 2 := by
    refine mul_right_cancel₀ hpos.ne' ?_
    linarith
  exact hne (le_antisymm (by linarith) hlow)

/-- On a grid that is not aligned some cell has other coordinates than its block: the first one, or
the one that comes once around the globe. -/
theorem Block.exists_texCoord_ne (h : Block row column grid)
    (hwest : (grid.columns : ℤ) = rowColumns row →
      grid.bounds.west = -180 ∧ cellWest row column ≠ -180)
    (hfull : rowColumns row ≤ grid.columns) :
    ∃ c < grid.columns, grid.bounds.texCoord ((Bucket.ofCell row (column + c)).centerLon)
      ((Bucket.ofCell row (column + c)).centerLat) ≠ blockCenter grid 0 c := by
  obtain ⟨c, hc, hne⟩ : ∃ c < grid.columns,
      grid.bounds.texU ((Bucket.ofCell row (column + c)).centerLon)
        ≠ (c + 1 / 2) / grid.columns := by
    rcases hfull.lt_or_eq with hmore | honce
    · exact h.exists_texU_ne hmore
    · obtain ⟨hstart, hne⟩ := hwest honce.symm
      refine ⟨0, h.columns_pos, ?_⟩
      rw [Nat.cast_zero, add_zero]
      exact h.texU_ne honce.symm hstart hne
  refine ⟨c, hc, fun heq => hne ?_⟩
  rw [h.wellFormed_bounds.texCoord_eq] at heq
  exact congrArg Prod.fst heq

/-- Where the rectangle of a resolved grid starts at the first cell, every cell has the coordinates of
its block. -/
theorem Resolved.texCoord_center (h : Resolved desired grid) (hdesired : desired.WellFormed)
    (hblock : Block row column grid) (horigin : originOf desired = Bucket.ofCell row column)
    (hat : Bucket.Located row column (targetOf desired).west (targetOf desired).south)
    (hstart : grid.bounds.west = cellWest row column) {r c : ℕ} (hr : r < grid.rows)
    (hc : c < grid.columns) :
    grid.bounds.texCoord ((Bucket.ofCell (row + r) (column + c)).centerLon)
      ((Bucket.ofCell (row + r) (column + c)).centerLat) = blockCenter grid r c := by
  have hspan : grid.bounds.span = grid.columns * rowWidth row := by
    rcases (h.west_eq_iff hdesired hblock horigin hat).1 hstart with hgap | ⟨honce, -⟩
    · exact (hblock.west_span_open hgap).2
    · rw [(hblock.ring honce.symm.le).span_eq, ← rowColumns_mul_rowWidth row]
      congr 1
      exact_mod_cast honce.symm
  exact hblock.texCoord_center hstart hspan hblock.wellFormed_bounds.span_le_turn hr hc

/-- Where every cell of the first row has the coordinates of its block, the rectangle of a resolved
grid starts at the first cell. -/
theorem Resolved.west_eq_of_texCoord_center (h : Resolved desired grid)
    (hdesired : desired.WellFormed) (hblock : Block row column grid)
    (horigin : originOf desired = Bucket.ofCell row column)
    (hat : Bucket.Located row column (targetOf desired).west (targetOf desired).south)
    (hall : ∀ c < grid.columns,
      grid.bounds.texCoord ((Bucket.ofCell row (column + c)).centerLon)
        ((Bucket.ofCell row (column + c)).centerLat) = blockCenter grid 0 c) :
    grid.bounds.west = cellWest row column := by
  rw [h.west_eq_iff hdesired hblock horigin hat]
  by_contra hother
  obtain ⟨hfull, hmisses⟩ := not_or.1 hother
  have hstart : (grid.columns : ℤ) = rowColumns row →
      grid.bounds.west = -180 ∧ cellWest row column ≠ -180 := by
    intro honce
    obtain ⟨hrows, hne⟩ := not_or.1 fun hcase => hmisses ⟨honce, hcase⟩
    exact ⟨hblock.west_of_next_row honce.symm.le hrows, hne⟩
  obtain ⟨c, hc, hne⟩ := hblock.exists_texCoord_ne hstart (not_lt.1 hfull)
  exact hne (hall c hc)

/-- The texture coordinates of the centre of every cell are the centre of its block of the canvas
exactly when the grid is aligned, and then and only then does its rectangle start at the western edge
of the first cell. -/
theorem texCoord_center_iff (hdesired : desired.WellFormed) (hsouth : -90 ≤ desired.south)
    (hnorth : desired.north ≤ 90) (h : resolve desired = .ok (some grid)) :
    ∃ first, grid.cells.head? = some first
      ∧ ((∀ r < grid.rows, ∀ c < grid.columns, ∃ cell, grid.cell? r c = some cell
          ∧ grid.bounds.texCoord cell.centerLon cell.centerLat = blockCenter grid r c)
        ↔ Aligned grid first)
      ∧ (grid.bounds.west = (first.bounds : Bounds ℚ).west ↔ Aligned grid first) := by
  have hresolved := resolved_of_resolve h
  obtain ⟨row, column, horigin, hat, hblock⟩ :=
    exists_block_of_resolve hdesired hsouth hnorth hresolved
  have hwest := hresolved.west_eq_iff hdesired hblock horigin hat
  have hfirst : ((Bucket.ofCell row column).bounds : Bounds ℚ).west = cellWest row column := by
    rw [Bucket.bounds_ofCell]
  obtain ⟨rest, hcells, -⟩ := hblock.bounds_eq_cover
  refine ⟨Bucket.ofCell row column, by rw [hcells]; rfl, ?_, ?_⟩
  · rw [aligned_ofCell_iff, ← hwest]
    constructor
    · intro hall
      refine hresolved.west_eq_of_texCoord_center hdesired hblock horigin hat fun c hc => ?_
      obtain ⟨cell, hcell, heq⟩ := hall 0 hblock.rows_pos c hc
      rw [hblock.cell?_eq hblock.rows_pos hc, Nat.cast_zero, add_zero] at hcell
      cases hcell
      exact heq
    · intro hstart r hr c hc
      refine ⟨_, hblock.cell?_eq hr hc, ?_⟩
      exact hresolved.texCoord_center hdesired hblock horigin hat hstart hr hc
  · rw [hfirst, aligned_ofCell_iff]
    exact hwest

/-- A ring of two rows around the north pole that starts at the prime meridian: its rectangle starts
at the antimeridian all the same, and the first cell has the coordinates of a block half a turn
away. -/
theorem texCoord_turned_on_polar_ring :
    ∃ grid first, resolve (⟨0, 360, 89, 357 / 4⟩ : Bounds ℚ) = .ok (some grid)
      ∧ grid.columns = 30 ∧ grid.rows = 2 ∧ grid.cell? 0 0 = some first
      ∧ (first.bounds : Bounds ℚ).west = 0 ∧ grid.bounds.west = -180
      ∧ blockCenter grid 0 0 = (1 / 60, 3 / 4)
      ∧ grid.bounds.texCoord first.centerLon first.centerLat = (31 / 60, 3 / 4) := by
  obtain ⟨grid, hgrid, htest⟩ := exists_of_resolvesWith
    (show resolvesWith (⟨0, 360, 89, 357 / 4⟩ : Bounds ℚ) (fun grid =>
      decide (grid.columns = 30 ∧ grid.rows = 2 ∧ grid.cell? 0 0 = some ⟨0, 89, 0, 0⟩
        ∧ ((⟨0, 89, 0, 0⟩ : Bucket).bounds : Bounds ℚ).west = 0 ∧ grid.bounds.west = -180
        ∧ blockCenter grid 0 0 = (1 / 60, 3 / 4)
        ∧ grid.bounds.texCoord ((⟨0, 89, 0, 0⟩ : Bucket).centerLon)
          ((⟨0, 89, 0, 0⟩ : Bucket).centerLat) = (31 / 60, 3 / 4))) = true by decide +kernel)
  exact ⟨grid, _, hgrid, of_decide_eq_true htest⟩

/-- The southern row of the same ring, taken alone, is aligned. -/
theorem texCoord_center_of_one_row :
    ∃ grid first, (⟨0, 360, 89, 713 / 8⟩ : Bounds ℚ).WellFormed
      ∧ resolve (⟨0, 360, 89, 713 / 8⟩ : Bounds ℚ) = .ok (some grid)
      ∧ grid.columns = 30 ∧ grid.rows = 1 ∧ grid.cells.head? = some first
      ∧ grid.bounds.west = (first.bounds : Bounds ℚ).west
      ∧ ∀ r < grid.rows, ∀ c < grid.columns, ∃ cell, grid.cell? r c = some cell
        ∧ grid.bounds.texCoord cell.centerLon cell.centerLat = blockCenter grid r c := by
  have hdesired : (⟨0, 360, 89, 713 / 8⟩ : Bounds ℚ).WellFormed :=
    Bounds.wellFormed_iff.2 ⟨by norm_num, by norm_num, by norm_num, by norm_num, by norm_num⟩
  obtain ⟨grid, hgrid, htest⟩ := exists_of_resolvesWith
    (show resolvesWith (⟨0, 360, 89, 713 / 8⟩ : Bounds ℚ) (fun grid =>
      decide (grid.columns = 30 ∧ grid.rows = 1 ∧ grid.cells.head? = some ⟨0, 89, 0, 0⟩
        ∧ (grid.columns : ℚ) * (⟨0, 89, 0, 0⟩ : Bucket).width = 360)) = true by decide +kernel)
  obtain ⟨hcolumns, hrows, hhead, hturn⟩ := of_decide_eq_true htest
  obtain ⟨first, hfirst, hcoords, hwest⟩ :=
    texCoord_center_iff hdesired (by norm_num) (by norm_num) hgrid
  have heq : first = ⟨0, 89, 0, 0⟩ := Option.some.inj (hfirst.symm.trans hhead)
  have haligned : Aligned grid first := by
    rw [heq]
    exact .inr ⟨hturn, .inl hrows⟩
  exact ⟨grid, first, hdesired, hgrid, hcolumns, hrows, hfirst, hwest.2 haligned,
    hcoords.2 haligned⟩

end Orthomosaic.BucketGrid
