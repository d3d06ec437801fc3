import Mathlib.Data.Int.ModEq
import Orthomosaic.Proofs.Bucket.Numbering
import Orthomosaic.Proofs.Bucket.Owner
import Orthomosaic.Proofs.Mosaic.Coverage
import Orthomosaic.Proofs.Mosaic.RingCover

/-!
# The shape of a resolved grid

The cells of a resolved grid are the buckets of so many rows and so many columns from its origin on,
each once: this is true of every grid that is no wider than the globe. A row that closes the ring
stops there if the target is reached from the edge of its first cell. It goes on when the corner of
the target lies east of that cell and the target, seen from the cell, ends beyond a whole turn:
`Laps`. Then some buckets are listed twice (`resolve_shape`).

A corner lies east of its cell only just south of the edge of a narrower band
(`Laps.snappedToBand`).
-/

namespace Orthomosaic.BucketGrid

open Scalar

variable {desired : Bounds ℚ} {grid : BucketGrid ℚ} {row column : ℤ} {a b : Bounds ℚ}

/-! ## Rows that close the ring -/

/-- A row that has closed the ring reaches the eastern edge of the target when the target, seen from
where the row begins, ends within a turn. -/
theorem reachesEastOf_closed_iff (hdesired : desired.WellFormed) (h0 : 0 ≤ row) (h1 : row < 1440)
    (horigin : originOf desired = Bucket.ofCell row column) {k : ℕ}
    (hfull : rowColumns row ≤ (k : ℤ) + 1) :
    (coveredEast desired k).reachesEastOf (targetOf desired) = true
      ↔ eastward (cover (Bucket.ofCell row column).bounds (cellRun row (column + 1) k) : Bounds ℚ).west
          (targetOf desired).west
        + (targetOf desired).span ≤ 360 + Bounds.tolerance := by
  obtain ⟨hring, -⟩ := ring_row row column hfull
  rw [coveredEast_eq h0 h1 horigin,
    Bounds.reachesEastOf_iff hring.wellFormed (wellFormed_targetOf hdesired),
    lonPosition_closed hring.span_eq, hring.span_eq]

/-- One cell before the ring closes, the eastern edge of the target was not reached. -/
theorem Resolved.not_reach_before (h : Resolved desired grid) (hdesired : desired.WellFormed)
    (hblock : Block row column grid) (horigin : originOf desired = Bucket.ofCell row column)
    (hfull : rowColumns row ≤ grid.columns) {t : ℚ} (ht0 : -snapTolerance < t) (ht1 : t < 12)
    (hlon : SameMeridian (cellWest row column + t) (targetOf desired).west) :
    360 - rowWidth row + Bounds.tolerance < t + (targetOf desired).span := by
  have hn := le_rowColumns row
  have hrow := hblock.row_nonneg
  have hend := hblock.row_add_le
  have hpos := hblock.rows_pos
  obtain ⟨k, hk⟩ : ∃ k : ℕ, (k : ℤ) + 2 = rowColumns row :=
    ⟨(rowColumns row - 2).toNat, by omega⟩
  have hshort := h.not_reaches_east k (by omega)
  rw [← Bool.not_eq_true,
    reachesEastOf_open_iff hdesired hrow (by omega) horigin ht0 ht1 hlon (by omega), not_le] at hshort
  have hwidths : ((k + 1 : ℕ) : ℚ) * rowWidth row = 360 - rowWidth row := by
    have hcast : ((k : ℕ) : ℚ) + 2 = rowColumns row := by exact_mod_cast hk
    have hturn := rowColumns_mul_rowWidth row
    push_cast
    linear_combination rowWidth row * hcast + hturn
  rw [hwidths] at hshort
  exact hshort

/-- When the ring has closed, the eastern edge of the target is reached from its edge. -/
theorem Resolved.reach_closed (h : Resolved desired grid) (hdesired : desired.WellFormed)
    (hblock : Block row column grid) (horigin : originOf desired = Bucket.ofCell row column)
    (hfull : rowColumns row ≤ grid.columns) :
    eastward (cover (Bucket.ofCell row column).bounds
        (cellRun row (column + 1) (grid.columns - 1)) : Bounds ℚ).west (targetOf desired).west
      + (targetOf desired).span ≤ 360 + Bounds.tolerance := by
  have hrow := hblock.row_nonneg
  have hend := hblock.row_add_le
  have hpos := hblock.rows_pos
  have hcolumns := hblock.columns_pos
  exact (reachesEastOf_closed_iff hdesired hrow (by omega) horigin (by omega)).1 h.reaches_east

/-- A row whose first cell follows the antimeridian is never closed: the closing cell would move its
edge away from the target. -/
theorem Resolved.cellWest_ne (h : Resolved desired grid) (hdesired : desired.WellFormed)
    (hblock : Block row column grid) (horigin : originOf desired = Bucket.ofCell row column)
    (hat : Bucket.Located row column (targetOf desired).west (targetOf desired).south)
    (hfull : rowColumns row ≤ grid.columns) :
    cellWest row column ≠ -180 + rowWidth row := by
  intro hsecond
  have hw := le_rowWidth row
  have hw' := rowWidth_le row
  have htol := snapTolerance_eq
  have hpos := hblock.columns_pos
  obtain ⟨t, ht0, ht1, -, hlon⟩ := hat.exists_east
  have hbefore := h.not_reach_before hdesired hblock horigin hfull ht0 ht1 hlon
  have hreach := h.reach_closed hdesired hblock horigin hfull
  obtain ⟨-, hstart⟩ := ring_row row column
    (show rowColumns row ≤ ((grid.columns - 1 : ℕ) : ℤ) + 1 by omega)
  have heast : eastward (-180) (targetOf desired).west = rowWidth row + t := by
    refine eastward_eq_of ?_ (by linarith) (by linarith)
    rw [← add_assoc, ← hsecond]
    exact hlon
  rw [hstart (.inr hsecond), heast] at hreach
  linarith

/-- When a row goes on after closing the ring, the eastern edge of the target was not reached from the
edge of the first cell. -/
theorem Resolved.not_reach_around (h : Resolved desired grid) (hdesired : desired.WellFormed)
    (hblock : Block row column grid) (horigin : originOf desired = Bucket.ofCell row column)
    (hne : cellWest row column ≠ -180 + rowWidth row)
    (hmore : rowColumns row < grid.columns) :
    360 + Bounds.tolerance
      < eastward (cellWest row column) (targetOf desired).west + (targetOf desired).span := by
  have hn := le_rowColumns row
  have hrow := hblock.row_nonneg
  have hend := hblock.row_add_le
  have hpos := hblock.rows_pos
  obtain ⟨k, hk⟩ : ∃ k : ℕ, (k : ℤ) + 1 = rowColumns row :=
    ⟨(rowColumns row - 1).toNat, by omega⟩
  have hshort := h.not_reaches_east k (by omega)
  rw [← Bool.not_eq_true, reachesEastOf_closed_iff hdesired hrow (by omega) horigin hk.ge,
    (west_span_closed row column hk).2, if_neg hne, not_le] at hshort
  exact hshort

/-- A row that goes on after closing the ring has moved its edge away from the first cell. -/
theorem Resolved.row_west_ne (h : Resolved desired grid) (hdesired : desired.WellFormed)
    (hblock : Block row column grid) (horigin : originOf desired = Bucket.ofCell row column)
    (hne : cellWest row column ≠ -180 + rowWidth row)
    (hmore : rowColumns row < grid.columns) :
    (cover (Bucket.ofCell row column).bounds
      (cellRun row (column + 1) (grid.columns - 1)) : Bounds ℚ).west ≠ cellWest row column := by
  intro hwest
  have hshort := h.not_reach_around hdesired hblock horigin hne hmore
  have hreach := h.reach_closed hdesired hblock horigin hmore.le
  rw [hwest] at hreach
  linarith

/-- The western edge of a union is that of a part. -/
theorem west_absorb_or (a b : Bounds ℚ) :
    (a.absorb b).west = a.west ∨ (a.absorb b).west = b.west := by
  unfold Bounds.absorb
  split
  · exact .inl rfl
  · split
    · exact .inr rfl
    · dsimp only
      split
      · exact .inr rfl
      · exact .inl rfl

/-- The western edge of what some cells cover is that of the rectangle that is grown or of a cell. -/
theorem west_cover_or (b : Bounds ℚ) (cells : List Bucket) :
    (cover b cells).west = b.west
      ∨ ∃ cell ∈ cells, (cover b cells).west = (cell.bounds : Bounds ℚ).west := by
  induction cells generalizing b with
  | nil => exact .inl rfl
  | cons cell cells ih =>
    rw [cover_cons]
    rcases ih (b.absorb cell.bounds) with h | ⟨other, hother, h⟩
    · rcases west_absorb_or b (cell.bounds : Bounds ℚ) with hfirst | hcell
      · exact .inl (h.trans hfirst)
      · exact .inr ⟨cell, List.mem_cons_self .., h.trans hcell⟩
    · exact .inr ⟨other, List.mem_cons_of_mem cell hother, h⟩

/-- What a row covers starts at a cell that is less than a turn east of the first one. -/
theorem exists_west_row (row column : ℤ) (k : ℕ) :
    ∃ c, 0 ≤ c ∧ c < rowColumns row
      ∧ (cover (Bucket.ofCell row column).bounds (cellRun row (column + 1) k) : Bounds ℚ).west
        = cellWest row (column + c) := by
  have hn := le_rowColumns row
  rcases west_cover_or (Bucket.ofCell row column).bounds (cellRun row (column + 1) k) with
    h | ⟨cell, hcell, h⟩
  · refine ⟨0, le_refl 0, by omega, h.trans ?_⟩
    rw [Bucket.bounds_ofCell, add_zero]
  · obtain ⟨c, -, rfl⟩ := mem_cellRun.1 hcell
    refine ⟨(1 + c) % rowColumns row, Int.emod_nonneg _ (by omega),
      Int.emod_lt_of_pos _ (by omega), h.trans ?_⟩
    rw [Bucket.bounds_ofCell]
    unfold cellWest cellEighth
    rw [Int.add_emod_emod, add_assoc]

/-! ## Laps -/

/-- How far east of the western edge of the origin the south-western corner of the target lies. -/
def cornerOffset (desired : Bounds ℚ) : ℚ :=
  ((originOf desired).bounds : Bounds ℚ).lonPosition (targetOf desired).west

/-- The corner of the target lies east of the origin, and the target ends more than the tolerance
beyond a whole turn from the western edge of the origin. -/
def Laps (desired : Bounds ℚ) : Prop :=
  (originOf desired).width ≤ cornerOffset desired
    ∧ 360 + Bounds.tolerance < cornerOffset desired + (targetOf desired).span

instance (desired : Bounds ℚ) : Decidable (Laps desired) :=
  inferInstanceAs (Decidable (_ ∧ _))

/-- The offset of a corner that is near its cell. -/
theorem cornerOffset_eq (horigin : originOf desired = Bucket.ofCell row column) {t : ℚ}
    (ht0 : -snapTolerance < t) (ht1 : t < 12)
    (hlon : SameMeridian (cellWest row column + t) (targetOf desired).west) :
    cornerOffset desired = t := by
  have hn := le_rowColumns row
  obtain ⟨hwest, hspan⟩ := west_span_bounds (rfl : rowUnits row = _) column
  unfold cornerOffset
  rw [horigin]
  refine lonPosition_open (m := 1) hwest ?_ (by push_cast; omega) ht0 ht1 hlon
  rw [hspan, Nat.cast_one, one_mul]

/-- A target laps its grid only if its corner is taken up into a narrower band. -/
theorem Laps.snappedToBand (h : Laps desired) (hsouth : -90 ≤ (targetOf desired).south) :
    Bucket.SnappedToBand (targetOf desired).south := by
  obtain ⟨row, column, hcell, hat, hfrom, hto⟩ :=
    Bucket.exists_cell_containing (targetOf desired).west hsouth
  have hlon : SameMeridian
      (cellWest row column + (normalizeLon (targetOf desired).west - cellWest row column))
      (targetOf desired).west := by
    rw [add_sub_cancel]
    exact sameMeridian_normalizeLon _
  have heast := h.1
  rw [cornerOffset_eq hcell hfrom hto hlon, show originOf desired = _ from hcell,
    Bucket.width_ofCell] at heast
  exact hat.snappedToBand (Bucket.rowWidth_lt_of_east hsouth hcell heast)

/-- A grid that goes on after closing the ring: from the edge that its row has then the target is
reached, and this is the edge of a cell that the corner lies east of. -/
theorem Resolved.laps_of_lt (h : Resolved desired grid) (hdesired : desired.WellFormed)
    (hblock : Block row column grid) (horigin : originOf desired = Bucket.ofCell row column)
    (hat : Bucket.Located row column (targetOf desired).west (targetOf desired).south)
    (hmore : rowColumns row < grid.columns) : Laps desired := by
  have htol := Bounds.tolerance_eq
  have hsnap := snapTolerance_eq
  have hw := le_rowWidth row
  have hpos := hblock.columns_pos
  obtain ⟨t, ht0, ht1, -, hlon⟩ := hat.exists_east
  have hbefore := h.not_reach_before hdesired hblock horigin hmore.le ht0 ht1 hlon
  have hne := h.cellWest_ne hdesired hblock horigin hat hmore.le
  have haround := h.not_reach_around hdesired hblock horigin hne hmore
  have hreach := h.reach_closed hdesired hblock horigin hmore.le
  obtain ⟨c, hc0, hc1, hwest⟩ := exists_west_row row column (grid.columns - 1)
  have hmoved := h.row_west_ne hdesired hblock horigin hne hmore
  rw [hwest] at hreach hmoved
  have hcpos : 0 < c := by
    rcases hc0.lt_or_eq with hlt | rfl
    · exact hlt
    · rw [add_zero] at hmoved
      exact absurd rfl hmoved
  have hfit := mul_rowWidth_le hc1
  have hcq : (1 : ℚ) ≤ c := by exact_mod_cast hcpos
  have heast : rowWidth row ≤ t := by
    by_contra hinside
    -- seen from there, a corner in the first cell is almost a turn away
    have hback : eastward (cellWest row (column + c)) (targetOf desired).west
        = 360 - c * rowWidth row + t := by
      refine eastward_eq_of ?_ (by linarith) (by nlinarith)
      obtain ⟨k, hk⟩ := sameMeridian_cellWest_add row column c
      obtain ⟨l, hl⟩ := hlon
      exact ⟨l - k - 1, by push_cast; linarith⟩
    rw [hback] at hreach
    linarith
  rw [eastward_eq_of hlon (by linarith) (by linarith)] at haround
  unfold Laps
  rw [cornerOffset_eq horigin ht0 ht1 hlon, horigin, Bucket.width_ofCell]
  exact ⟨heast, haround⟩

/-- A grid that is no wider than the globe: its row has reached the target from the edge of the first
cell. -/
theorem Resolved.not_laps_of_le (h : Resolved desired grid) (hdesired : desired.WellFormed)
    (hblock : Block row column grid) (horigin : originOf desired = Bucket.ofCell row column)
    (hat : Bucket.Located row column (targetOf desired).west (targetOf desired).south)
    (hfit : (grid.columns : ℤ) ≤ rowColumns row) : ¬ Laps desired := by
  have hw := le_rowWidth row
  have hpos := hblock.columns_pos
  obtain ⟨t, ht0, ht1, -, hlon⟩ := hat.exists_east
  unfold Laps
  rw [cornerOffset_eq horigin ht0 ht1 hlon, horigin, Bucket.width_ofCell]
  rintro ⟨heast, hbeyond⟩
  rcases hfit.lt_or_eq with hgap | honce
  · have hreach := h.reach_east hdesired hblock horigin hgap ht0 ht1 hlon
    have hwidths := mul_rowWidth_le hgap
    rw [Int.cast_natCast] at hwidths
    linarith
  · have hne := h.cellWest_ne hdesired hblock horigin hat honce.ge
    have hreach := h.reach_closed hdesired hblock horigin honce.ge
    rw [(west_span_closed row column (by omega)).2, if_neg hne,
      eastward_eq_of hlon (by linarith) (by linarith)] at hreach
    linarith

/-! ## Repeated cells -/

/-- Once around the globe the columns of a row are the same cells again. -/
theorem ofCell_turn {k : ℕ} (hk : (k : ℤ) = rowColumns row) :
    Bucket.ofCell row (column + k) = Bucket.ofCell row column := by
  refine Bucket.ofCell_congr ?_
  have hturn := sameMeridian_cellWest_add row column k
  have hround : ((k : ℤ) : ℚ) * rowWidth row = 360 := by
    rw [hk]
    exact rowColumns_mul_rowWidth row
  rw [hround] at hturn
  exact hturn.symm.trans ⟨-1, by push_cast; ring⟩

/-- The cells of a block are different ones exactly when it is no wider than the globe. -/
theorem Block.nodup_iff (h : Block row column grid) :
    grid.cells.Nodup ↔ (grid.columns : ℤ) ≤ rowColumns row := by
  have h0 := h.row_nonneg
  have hend := h.row_add_le
  have hn := le_rowColumns row
  have hrows := h.rows_pos
  rw [h.cells_eq]
  constructor
  · intro hnodup
    by_contra hmore
    obtain ⟨k, hk⟩ : ∃ k : ℕ, (k : ℤ) = rowColumns row := ⟨(rowColumns row).toNat, by omega⟩
    have hfirst := getElem?_cellRows row column hrows (show 0 < grid.columns by omega)
    have hagain := getElem?_cellRows row column hrows (show k < grid.columns by omega)
    rw [Nat.zero_mul, Nat.zero_add, Nat.cast_zero, add_zero, add_zero] at hfirst
    rw [Nat.zero_mul, Nat.zero_add, Nat.cast_zero, add_zero, ofCell_turn hk, ← hfirst] at hagain
    have hzero := (List.getElem?_inj (by rw [length_cellRows]; nlinarith) hnodup).1 hagain
    omega
  · intro hfit
    unfold cellRows cellRun
    rw [List.nodup_flatMap]
    refine ⟨fun r hr => ?_, List.nodup_range.imp fun {r s} hne => ?_⟩
    · -- in one row the columns are less than a turn apart
      have hr' := List.mem_range.1 hr
      refine List.nodup_range.map_on fun c hc d hd heq => ?_
      have hcolumn := congrArg Bucket.column heq
      rw [Bucket.column_ofCell (by omega) (by omega), Bucket.column_ofCell (by omega) (by omega)]
        at hcolumn
      have hc' := List.mem_range.1 hc
      have hd' := List.mem_range.1 hd
      have hsame : (c : ℤ) % rowColumns (row + r) = (d : ℤ) % rowColumns (row + r) :=
        Int.ModEq.add_left_cancel' column hcolumn
      rw [rowColumns_congr (h.units_eq r hr'), Int.emod_eq_of_lt (by omega) (by omega),
        Int.emod_eq_of_lt (by omega) (by omega)] at hsame
      exact_mod_cast hsame
    · intro cell hcell hcell'
      obtain ⟨c, -, rfl⟩ := List.mem_map.1 hcell
      obtain ⟨d, -, heq⟩ := List.mem_map.1 hcell'
      have hrow := congrArg Bucket.row heq
      rw [Bucket.row_ofCell, Bucket.row_ofCell] at hrow
      omega

/-! ## The shape -/

/-- The cells of a block, by their rows and columns. -/
theorem Block.cell?_spec (h : Block row column grid) {r c : ℕ} {cell : Bucket}
    (hcell : grid.cell? r c = some cell) :
    (r < grid.rows ∧ c < grid.columns) ∧ cell.Canonical
      ∧ cell.row = (Bucket.ofCell row column).row + r
      ∧ cell.column = ((Bucket.ofCell row column).column + c)
        % (Bucket.ofCell row column).columnsAround
      ∧ (cell.width : ℚ) = (Bucket.ofCell row column).width := by
  have h0 := h.row_nonneg
  have hend := h.row_add_le
  have hpos := h.rows_pos
  have hplace : r < grid.rows ∧ c < grid.columns := by
    by_contra hoff
    unfold cell? at hcell
    rw [if_neg hoff] at hcell
    cases hcell
  have hunits := h.units_eq r hplace.1
  rw [h.cell?_eq hplace.1 hplace.2] at hcell
  obtain rfl := Option.some.inj hcell
  refine ⟨hplace, Bucket.canonical_ofCell (by omega) (by omega) _, ?_, ?_, ?_⟩
  · rw [Bucket.row_ofCell, Bucket.row_ofCell]
  · rw [Bucket.column_ofCell (by omega) (by omega), Bucket.column_ofCell h0 (by omega),
      Bucket.columnsAround_ofCell, rowColumns_congr hunits, Int.emod_add_emod]
  · rw [Bucket.width_ofCell, Bucket.width_ofCell, rowWidth_congr hunits]

/-- A number of columns goes once around the globe at most when their widths do. -/
theorem mul_rowWidth_le_turn_iff (row : ℤ) (columns : ℕ) :
    (columns : ℚ) * rowWidth row ≤ 360 ↔ (columns : ℤ) ≤ rowColumns row := by
  have hw : 0 < rowWidth row := by linarith [le_rowWidth row]
  rw [← rowColumns_mul_rowWidth row, mul_le_mul_iff_left₀ hw]
  exact_mod_cast Iff.rfl

/-- A resolved grid has so many rows and columns of cells, row by row: in each place the canonical
bucket so many rows north and columns east of the origin, around the globe if need be, and all of one
width. It is no wider than the globe, and no bucket is in it twice, exactly when its target does not
lap it. -/
theorem resolve_shape (hdesired : desired.WellFormed) (hsouth : -90 ≤ desired.south)
    (hnorth : desired.north ≤ 90) (h : resolve desired = .ok (some grid)) :
    grid.cells.length = grid.rows * grid.columns
      ∧ (∀ r c, (grid.cell? r c).isSome = true ↔ r < grid.rows ∧ c < grid.columns)
      ∧ (∀ r c cell, grid.cell? r c = some cell → cell.Canonical
        ∧ cell.row = (originOf desired).row + r
        ∧ cell.column = ((originOf desired).column + c) % (originOf desired).columnsAround)
      ∧ (∀ cell ∈ grid.cells, (cell.width : ℚ) = (originOf desired).width)
      ∧ (grid.columns * (originOf desired).width ≤ (360 : ℚ) ↔ ¬ Laps desired)
      ∧ (grid.cells.Nodup ↔ ¬ Laps desired) := by
  have hresolved := resolved_of_resolve h
  obtain ⟨row, column, horigin, hat, hblock⟩ :=
    exists_block_of_resolve hdesired hsouth hnorth hresolved
  have hlaps : (grid.columns : ℤ) ≤ rowColumns row ↔ ¬ Laps desired := by
    refine ⟨hresolved.not_laps_of_le hdesired hblock horigin hat, fun hno => ?_⟩
    by_contra hmore
    exact hno (hresolved.laps_of_lt hdesired hblock horigin hat (not_le.1 hmore))
  rw [horigin]
  refine ⟨hresolved.length_cells, fun r c => ?_, fun r c cell hcell => ?_, fun cell hcell => ?_,
    ?_, hblock.nodup_iff.trans hlaps⟩
  · constructor
    · intro hsome
      obtain ⟨cell, hcell⟩ := Option.isSome_iff_exists.1 hsome
      exact (hblock.cell?_spec hcell).1
    · rintro ⟨hr, hc⟩
      rw [hblock.cell?_eq hr hc]
      rfl
  · obtain ⟨-, hcanonical, hrow, hcolumn, -⟩ := hblock.cell?_spec hcell
    exact ⟨hcanonical, hrow, hcolumn⟩
  · rw [hblock.cells_eq] at hcell
    obtain ⟨r, hr, c, hc, rfl⟩ := mem_cellRows.1 hcell
    exact (hblock.cell?_spec (hblock.cell?_eq hr hc)).2.2.2.2
  · rw [Bucket.width_ofCell, mul_rowWidth_le_turn_iff]
    exact hlaps

/-- Two rows of two cells at the antimeridian: the second column is the first of the globe. -/
theorem resolve_shape_at_antimeridian :
    (⟨1799 / 10, 3 / 20, 0, 1 / 5⟩ : Bounds ℚ).WellFormed
      ∧ ¬ Laps ⟨1799 / 10, 3 / 20, 0, 1 / 5⟩
      ∧ ∃ grid cell, resolve (⟨1799 / 10, 3 / 20, 0, 1 / 5⟩ : Bounds ℚ) = .ok (some grid)
        ∧ grid.cells.length = 4 ∧ grid.cells.Nodup ∧ grid.cell? 1 1 = some cell
        ∧ cell.row = 721 ∧ cell.column = 0 ∧ grid.cell? 2 0 = none := by
  have hdesired : (⟨1799 / 10, 3 / 20, 0, 1 / 5⟩ : Bounds ℚ).WellFormed := by decide +kernel
  have hno : ¬ Laps ⟨1799 / 10, 3 / 20, 0, 1 / 5⟩ := by decide +kernel
  have horigin : originOf (⟨1799 / 10, 3 / 20, 0, 1 / 5⟩ : Bounds ℚ) = ⟨179, 0, 7, 0⟩ := by
    decide +kernel
  obtain ⟨grid, hgrid, htest⟩ := exists_of_resolvesWith
    (show resolvesWith (⟨1799 / 10, 3 / 20, 0, 1 / 5⟩ : Bounds ℚ)
      (fun grid => decide (grid.columns = 2 ∧ grid.rows = 2)) = true by decide +kernel)
  obtain ⟨hcolumns, hrows⟩ := of_decide_eq_true htest
  obtain ⟨hlength, hsome, hplace, -, -, hnodup⟩ :=
    resolve_shape hdesired (by norm_num) (by norm_num) hgrid
  obtain ⟨cell, hcell⟩ := Option.isSome_iff_exists.1 ((hsome 1 1).2 (by omega))
  obtain ⟨-, hrow, hcolumn⟩ := hplace 1 1 cell hcell
  rw [horigin] at hrow hcolumn
  refine ⟨hdesired, hno, grid, cell, hgrid, ?_, hnodup.2 hno, hcell, ?_, ?_, ?_⟩
  · rw [hlength, hcolumns, hrows]
  · rw [hrow]
    decide
  · rw [hcolumn]
    decide +kernel
  · rw [← Option.not_isSome_iff_eq_none, hsome 2 0]
    omega

/-- A target just south of the parallel of 89 degrees south, almost all the way around the globe. Its
corner is found in the four degrees east of Greenwich and lies in their extent up to the snapping
tolerance, but east of them; the row goes on for 92 buckets where 90 go around the globe, and has its
first bucket again after these. -/
theorem resolve_laps_below_edge :
    ∃ (desired : Bounds ℚ) (grid : BucketGrid ℚ),
      desired = ⟨39999943 / 10000000, 359, -8900000575 / 100000000, -889 / 10⟩
      ∧ (desired.WellFormed ∧ -90 ≤ desired.south ∧ desired.north ≤ 90)
      ∧ resolve desired = .ok (some grid)
      ∧ ((originOf desired).bounds : Bounds ℚ).Near snapTolerance (targetOf desired).west
        (targetOf desired).south
      ∧ grid.columns = 92 ∧ ((originOf desired).width : ℚ) = 4
      ∧ grid.cell? 0 0 = some ⟨0, -89, 0, 0⟩ ∧ grid.cell? 0 90 = some ⟨0, -89, 0, 0⟩
      ∧ ¬ grid.cells.Nodup := by
  obtain ⟨grid, hgrid, htest⟩ := exists_of_resolvesWith
    (show resolvesWith (⟨39999943 / 10000000, 359, -8900000575 / 100000000, -889 / 10⟩ : Bounds ℚ)
      (fun grid => decide (grid.columns = 92 ∧ grid.cell? 0 0 = some ⟨0, -89, 0, 0⟩
        ∧ grid.cell? 0 90 = some ⟨0, -89, 0, 0⟩ ∧ ¬ grid.cells.Nodup)) = true by decide +kernel)
  obtain ⟨hcolumns, hfirst, hagain, hrepeats⟩ := of_decide_eq_true htest
  have hcell : originOf (⟨39999943 / 10000000, 359, -8900000575 / 100000000, -889 / 10⟩ : Bounds ℚ)
      = ⟨0, -89, 0, 0⟩ := by decide +kernel
  refine ⟨_, grid, rfl, by decide +kernel, hgrid, ?_, hcolumns, by decide +kernel, hfirst, hagain,
    hrepeats⟩
  rw [hcell]
  refine ⟨(Bounds.exists_east_iff_lonPosition ?_ ?_).2 ?_, ?_, ?_⟩ <;> decide +kernel

end Orthomosaic.BucketGrid
