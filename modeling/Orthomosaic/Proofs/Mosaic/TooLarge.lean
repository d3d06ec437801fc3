import Orthomosaic.Proofs.Mosaic.BandEdge
import Orthomosaic.Proofs.Mosaic.Shape

/-!
# When a rectangle is too large

Only the loop eastward can meet the limit of a grid, as the one northward ends at the pole
(`resolve_grid_or_widthChange`). A row that leaves a gap reaches the target when its cells are wide
enough together (`StartsAt.reaches_open_iff`). From the cell on that closes the ring the row is a
whole turn wide, and what counts is where it begins, for the target is measured from there
(`StartsAt.reaches_closed_iff`): first at the edge of the origin, with every further cell at the edge
of that cell (`west_second_turn`), and at last at the antimeridian.

A target that starts inside the origin and goes almost all the way around the globe ends beyond a
turn from all of these edges, and the loop runs into the limit though the row covers every longitude:
`Overruns`.
-/

namespace Orthomosaic.BucketGrid

open Scalar

/-! ## The two loops -/

section Loops

variable {α : Type} [Scalar α] {desired : Bounds α}

/-- There are too many columns exactly when no row of the greatest length, nor a shorter one, reaches
the target. -/
theorem resolve_eq_tooLarge_columns_iff (h : desired.isEmpty = false) {n : ℕ} :
    resolve desired = .error (.tooLarge .columns n)
      ↔ n = maxGridExtent + 1
        ∧ ∀ k ≤ maxGridExtent - 1, (coveredEast desired k).reachesEastOf (targetOf desired) = false := by
  rw [resolve_of_not_isEmpty h]
  cases heast : growEast (targetOf desired) (maxGridExtent - 1) (originOf desired).bounds
      (originOf desired) with
  | error e =>
    have hnone := not_reaches_of_growEast_eq_error heast
    obtain rfl := growEast_eq_error heast
    constructor
    · intro herror
      cases herror
      exact ⟨rfl, hnone⟩
    · rintro ⟨rfl, -⟩
      rfl
  | ok found =>
    obtain ⟨east, covered⟩ := found
    obtain ⟨k, hk, -, rfl, hreach, -⟩ := growEast_eq_ok heast
    constructor
    · intro herror
      dsimp only at herror
      split at herror
      · next hnorth =>
        cases herror
        rcases growNorth_eq_error hnorth with ⟨found, lat, h⟩ | h <;> cases h
      · cases herror
    · rintro ⟨-, hnone⟩
      have hshort := hnone k hk
      unfold coveredEast at hshort
      rw [hreach] at hshort
      cases hshort

/-- The loop eastward ends at the first row that reaches the target, with as many cells as the columns
of the grid, if there is one. -/
theorem exists_growEast_of_reaches {k : ℕ} (hk : k ≤ maxGridExtent - 1)
    (hreach : (coveredEast desired k).reachesEastOf (targetOf desired) = true) :
    ∃ j ≤ k, growEast (targetOf desired) (maxGridExtent - 1) (originOf desired).bounds
        (originOf desired) = .ok (eastOf α (originOf desired) j, coveredEast desired j)
      ∧ ∀ grid, resolve desired = .ok (some grid) → grid.columns = j + 1 := by
  have hreaches : ∃ j, (coveredEast desired j).reachesEastOf (targetOf desired) = true := ⟨k, hreach⟩
  have hfirst : Nat.find hreaches ≤ k := Nat.find_min' hreaches hreach
  have hgrow := growEast_of_reaches (hfirst.trans hk) (Nat.find_spec hreaches)
    fun j hj => Bool.eq_false_iff.2 (Nat.find_min hreaches hj)
  refine ⟨Nat.find hreaches, hfirst, hgrow, fun grid hgrid => ?_⟩
  have hresolved := resolved_of_resolve hgrid
  have hpos := hresolved.columns_pos
  have hfound : Nat.find hreaches = grid.columns - 1 :=
    (Nat.find_eq_iff hreaches).2 ⟨hresolved.reaches_east, fun j hj =>
      Bool.eq_false_iff.1 (hresolved.not_reaches_east j hj)⟩
  omega

end Loops

variable {desired : Bounds ℚ} {row column : ℤ}

/-- The loop northward stops at the pole at the latest: unless there are too many columns, it finds a
grid that ends there or meets a row of another width before. -/
theorem resolve_grid_or_widthChange (hdesired : desired.WellFormed) (hsouth : -90 ≤ desired.south)
    (hnorth : desired.north ≤ 90)
    (hcolumns : ∀ n, resolve desired ≠ .error (.tooLarge .columns n)) :
    (∃ grid, resolve desired = .ok (some grid) ∧ (originOf desired).row + grid.rows ≤ 1440)
      ∨ ∃ found lat, resolve desired = .error (.widthChange (originOf desired).width found lat)
        ∧ lat < 90 := by
  have hempty := hdesired.isEmpty_eq_false
  obtain ⟨hs, hn⟩ := Bounds.shrunk_lat hdesired edgeInset_pos.le
  obtain ⟨row, column, horigin, hat⟩ :=
    Bucket.containing_spec (targetOf desired).west (hsouth.trans hs)
  have h0 := hat.row_nonneg
  have h1 := hat.row_lt
  have horigin' : originOf desired = Bucket.ofCell row column := horigin
  obtain ⟨rows, hband⟩ := Bucket.exists_band_ofCell h0 h1 column
  obtain ⟨-, hend, -, -⟩ := (Bucket.band_ofCell_iff h0 h1).1 hband
  rw [← horigin'] at hband
  rcases le_or_gt (targetOf desired).north ((originOf desired).northEdge rows + Bounds.tolerance)
    with hwithin | hbeyond
  · obtain ⟨grid, hgrid, hrows⟩ :=
      exists_resolve_of_le_northEdge h0 h1 hempty hcolumns horigin' hband hwithin
    refine .inl ⟨grid, hgrid, ?_⟩
    rw [horigin', Bucket.row_ofCell]
    omega
  · refine .inr ⟨_, _, resolve_eq_widthChange h0 h1 hempty hcolumns horigin' hband
      (hn.trans hnorth) hbeyond, ?_⟩
    have htol := Bounds.tolerance_pos
    have hpole : (targetOf desired).north ≤ 90 := hn.trans hnorth
    rw [horigin'] at hbeyond ⊢
    have hlast : row + rows ≤ 1439 := by
      have := (Bucket.northEdge_lt_pole_iff h0 h1 column rows).1 (by linarith)
      omega
    have hlast' : (row : ℚ) + rows ≤ 1439 := by exact_mod_cast hlast
    rw [Bucket.centerLat_ofCell, Bucket.bucketHeight_eq]
    unfold rowSouth
    linarith

/-! ## Where a row begins that has closed the ring -/

/-- A cell some columns further east, up to the antimeridian. -/
theorem cellWest_add_of_lt {c : ℕ} (h : cellWest row column + c * rowWidth row < 180) :
    cellWest row (column + c) = cellWest row column + c * rowWidth row := by
  have hw := le_rowWidth row
  have hc : (0 : ℚ) ≤ c := Nat.cast_nonneg c
  have h0 := le_cellWest row column
  have h0' := le_cellWest row (column + c)
  have h1' := cellWest_lt row (column + c)
  have hsame := sameMeridian_cellWest_add row column c
  rw [Int.cast_natCast] at hsame
  exact (hsame.eq_of_lt (by nlinarith) (by nlinarith)).symm

/-- A row that has closed the ring compares its edge with that of each further cell. -/
theorem west_row_succ {j : ℕ} (hj : (j : ℤ) + 1 = rowColumns row) (i : ℕ)
    (hi : cellWest row column + i * rowWidth row < 180) :
    (cover (Bucket.ofCell row column).bounds (cellRun row (column + 1) (j + i + 1)) : Bounds ℚ).west
      = Bounds.ringWest
          (cover (Bucket.ofCell row column).bounds (cellRun row (column + 1) (j + i)) : Bounds ℚ).west
          (cellWest row column + i * rowWidth row) := by
  obtain ⟨hring, -⟩ := ring_row row column (show rowColumns row ≤ ((j + i : ℕ) : ℤ) + 1 by omega)
  rw [cellRun_succ_last, cover_append, cover_cons, cover_nil, (hring.span_west_absorb row _).2]
  -- once around the globe from one that follows the first cell
  rw [← cellWest_add_of_lt hi, cellWest_eq row (column + i), cellWest_eq row (column + 1 + _),
    show column + 1 + (j + i : ℕ) = column + i + rowColumns row by push_cast; linarith,
    Int.add_emod_right]

/-- A row that goes on after closing the ring, unless its first cell is next to the antimeridian,
begins at the edge of its latest cell, as long as the cells have not come to the antimeridian. -/
theorem west_second_turn (hstart : -180 + rowWidth row < cellWest row column) {j : ℕ}
    (hj : (j : ℤ) + 1 = rowColumns row) {i : ℕ}
    (hi : cellWest row column + i * rowWidth row < 180) :
    (cover (Bucket.ofCell row column).bounds (cellRun row (column + 1) (j + i + 1)) : Bounds ℚ).west
      = cellWest row column + i * rowWidth row := by
  have htol := Bounds.tolerance_eq
  have hw := le_rowWidth row
  rw [west_row_succ hj i hi]
  induction i with
  | zero =>
    obtain ⟨-, hwest⟩ := west_span_closed row column hj
    rw [if_neg (by linarith)] at hwest
    rw [Nat.add_zero, hwest, Nat.cast_zero, zero_mul, add_zero]
    exact Bounds.ringWest_of_le (by linarith) (le_refl _)
  | succ i ih =>
    have hi' : cellWest row column + (i + 1) * rowWidth row < 180 := by
      rwa [Nat.cast_succ] at hi
    have hbefore : cellWest row column + i * rowWidth row < 180 := by linarith
    have hnonneg : (0 : ℚ) ≤ i * rowWidth row := mul_nonneg (Nat.cast_nonneg i) (by linarith)
    rw [← Nat.add_assoc, west_row_succ hj i hbefore, ih hbefore, Nat.cast_succ]
    exact Bounds.ringWest_of_lt (by linarith) (by linarith)

/-! ## What a row reaches from its start -/

/-- A grid starts from the cell in a row and a column. -/
structure StartsAt (desired : Bounds ℚ) (row column : ℤ) : Prop where
  wellFormed : desired.WellFormed
  origin_eq : originOf desired = Bucket.ofCell row column
  row_nonneg : 0 ≤ row
  row_lt : row < 1440
  west_eq : (targetOf desired).west = cellWest row column + cornerOffset desired
  lt_offset : -snapTolerance < cornerOffset desired
  offset_lt : cornerOffset desired < 12

/-- Every rectangle on the globe has a start. -/
theorem exists_startsAt (hdesired : desired.WellFormed) (hsouth : -90 ≤ desired.south) :
    ∃ row column, StartsAt desired row column := by
  have hs := (Bounds.shrunk_lat hdesired edgeInset_pos.le).1
  obtain ⟨hwest0, hwest1, -⟩ := Bounds.wellFormed_iff.1 (wellFormed_targetOf hdesired)
  obtain ⟨row, column, hcell, hat, hfrom, hto⟩ :=
    Bucket.exists_cell_containing (targetOf desired).west (hsouth.trans hs)
  rw [normalizeLon_of_mem hwest0 hwest1] at hfrom hto
  have hoffset := cornerOffset_eq hcell hfrom hto (by rw [add_sub_cancel]; exact .refl _)
  refine ⟨row, column, hdesired, hcell, hat.row_nonneg, hat.row_lt, ?_, ?_, ?_⟩
  · rw [hoffset, add_sub_cancel]
  · rwa [hoffset]
  · rwa [hoffset]

section Start

variable (h : StartsAt desired row column)
include h

/-- A row that leaves a gap has reached the target when its cells are wide enough together. -/
theorem StartsAt.reaches_open_iff {k : ℕ} (hgap : (k : ℤ) + 1 < rowColumns row) :
    (coveredEast desired k).reachesEastOf (targetOf desired) = true
      ↔ cornerOffset desired + (targetOf desired).span
        ≤ (k + 1 : ℕ) * rowWidth row + Bounds.tolerance :=
  reachesEastOf_open_iff h.wellFormed h.row_nonneg h.row_lt h.origin_eq h.lt_offset h.offset_lt
    (h.west_eq ▸ .refl _) hgap

/-- A row that has closed the ring has reached the target when the target, seen from where the row
begins, ends within a turn. -/
theorem StartsAt.reaches_closed_iff {k : ℕ} (hfull : rowColumns row ≤ (k : ℤ) + 1) {west d : ℚ}
    (hwest : (cover (Bucket.ofCell row column).bounds (cellRun row (column + 1) k) : Bounds ℚ).west
      = west)
    (hd : SameMeridian (west + d) (targetOf desired).west) (h0 : 0 ≤ d) (h1 : d < 360) :
    (coveredEast desired k).reachesEastOf (targetOf desired) = true
      ↔ d + (targetOf desired).span ≤ 360 + Bounds.tolerance := by
  rw [reachesEastOf_closed_iff h.wellFormed h.row_nonneg h.row_lt h.origin_eq hfull, hwest,
    eastward_eq_of hd h0 h1]

end Start

/-! ## Targets that are never reached -/

/-- How far east of the western edge of the origin a row begins from which the target is seen to end
soonest, once it has closed the ring. In the first two columns of the globe that is at the
antimeridian, in the others at the last edge of a cell that is not east of the corner of the
target. -/
def seamOffset (desired : Bounds ℚ) : ℚ :=
  if (originOf desired).column ≤ 1 then
    -((originOf desired).column * (originOf desired).width)
  else
    ⌊cornerOffset desired / (originOf desired).width⌋ * (originOf desired).width

/-- The target ends more than the tolerance beyond a whole turn, wherever a row begins that has closed
the ring. -/
def Overruns (desired : Bounds ℚ) : Prop :=
  360 + seamOffset desired + Bounds.tolerance < cornerOffset desired + (targetOf desired).span

instance (desired : Bounds ℚ) : Decidable (Overruns desired) :=
  inferInstanceAs (Decidable (_ < _))

section Start

variable (h : StartsAt desired row column)
include h

/-- Where a row begins that has closed the ring, told by the cell that it started from. -/
theorem StartsAt.seamOffset_eq :
    seamOffset desired =
      if column % rowColumns row ≤ 1 then -((column % rowColumns row : ℤ) * rowWidth row)
      else ⌊cornerOffset desired / rowWidth row⌋ * rowWidth row := by
  unfold seamOffset
  rw [h.origin_eq, Bucket.column_ofCell h.row_nonneg h.row_lt, Bucket.width_ofCell]

/-- A row that has closed the ring begins at most a cell west of the one that it started from. -/
theorem StartsAt.le_seamOffset : -rowWidth row ≤ seamOffset desired := by
  have hw := le_rowWidth row
  have htol := snapTolerance_eq
  have hlow := h.lt_offset
  rw [h.seamOffset_eq]
  split
  · next hcolumn =>
    have : ((column % rowColumns row : ℤ) : ℚ) ≤ 1 := by exact_mod_cast hcolumn
    nlinarith
  · have hfloor : -1 ≤ ⌊cornerOffset desired / rowWidth row⌋ := by
      rw [Int.le_floor, le_div_iff₀ (by linarith)]
      push_cast
      linarith
    have : (-1 : ℚ) ≤ ⌊cornerOffset desired / rowWidth row⌋ := by exact_mod_cast hfloor
    nlinarith

/-- The target of an overrun is not reached by an open row. -/
theorem StartsAt.not_reaches_open (ho : Overruns desired) {k : ℕ}
    (hgap : (k : ℤ) + 1 < rowColumns row) :
    (coveredEast desired k).reachesEastOf (targetOf desired) = false := by
  have hseam := h.le_seamOffset
  have hfit := mul_rowWidth_le hgap
  unfold Overruns at ho
  rw [← Bool.not_eq_true, h.reaches_open_iff hgap, not_le]
  push_cast at hfit ⊢
  linarith

/-- Nor is it by a row that begins at the antimeridian. -/
theorem StartsAt.not_reaches_antimeridian (ho : Overruns desired)
    (hcolumn : column % rowColumns row ≤ 1) {k : ℕ} (hfull : rowColumns row ≤ (k : ℤ) + 1) :
    (coveredEast desired k).reachesEastOf (targetOf desired) = false := by
  obtain ⟨hwest0, hwest1, -⟩ := Bounds.wellFormed_iff.1 (wellFormed_targetOf h.wellFormed)
  have hedge := cellWest_eq row column
  have hn := le_rowColumns row
  have hc0 := Int.emod_nonneg column (show rowColumns row ≠ 0 by omega)
  have hstart : cellWest row column = -180 ∨ cellWest row column = -180 + rowWidth row := by
    rcases (show column % rowColumns row = 0 ∨ column % rowColumns row = 1 by omega) with hc | hc
    · left
      rw [hedge, hc, Int.cast_zero, zero_mul, add_zero]
    · right
      rw [hedge, hc, Int.cast_one, one_mul]
  obtain ⟨-, hring⟩ := ring_row row column hfull
  have hlon := h.west_eq
  have heast : SameMeridian (-180 + (cellWest row column + 180 + cornerOffset desired))
      (targetOf desired).west := ⟨0, by rw [hlon]; push_cast; ring⟩
  unfold Overruns at ho
  rw [h.seamOffset_eq, if_pos hcolumn] at ho
  rw [← Bool.not_eq_true, h.reaches_closed_iff hfull (hring hstart) heast (by linarith)
    (by linarith), not_le]
  linarith

/-- Nor by one that begins at a cell further east. -/
theorem StartsAt.not_reaches_inland (ho : Overruns desired)
    (hcolumn : 1 < column % rowColumns row) {k : ℕ} (hfull : rowColumns row ≤ (k : ℤ) + 1) :
    (coveredEast desired k).reachesEastOf (targetOf desired) = false := by
  have hw := le_rowWidth row
  have hw' := rowWidth_le row
  have htol := snapTolerance_eq
  have hlow := h.lt_offset
  have hhigh := h.offset_lt
  have hlon := h.west_eq
  have hseam := h.le_seamOffset
  obtain ⟨c, hc0, hc1, hwest⟩ := exists_west_row row column k
  have hc0q : (0 : ℚ) ≤ c := by exact_mod_cast hc0
  have hfit := mul_rowWidth_le hc1
  obtain ⟨turns, hturns⟩ := sameMeridian_cellWest_add row column c
  unfold Overruns at ho
  rcases le_or_gt (c * rowWidth row) (cornerOffset desired) with hinside | hbeyond
  · -- the last edge that is not east of the corner is the best one
    have hfloor : c ≤ ⌊cornerOffset desired / rowWidth row⌋ := by
      rwa [Int.le_floor, le_div_iff₀ (by linarith)]
    have hfloorq : (c : ℚ) ≤ ⌊cornerOffset desired / rowWidth row⌋ := by exact_mod_cast hfloor
    have heast : SameMeridian (cellWest row (column + c) + (cornerOffset desired - c * rowWidth row))
        (targetOf desired).west := ⟨-turns, by rw [hlon, hturns]; push_cast; ring⟩
    rw [h.seamOffset_eq, if_neg (not_le.2 hcolumn)] at ho
    rw [← Bool.not_eq_true, h.reaches_closed_iff hfull hwest heast (by linarith) (by nlinarith),
      not_le]
    nlinarith
  · -- seen from an edge beyond the corner the target is almost a turn further
    have heast : SameMeridian
        (cellWest row (column + c) + (360 + cornerOffset desired - c * rowWidth row))
        (targetOf desired).west := ⟨-turns - 1, by rw [hlon, hturns]; push_cast; ring⟩
    rw [← Bool.not_eq_true, h.reaches_closed_iff hfull hwest heast (by linarith) (by linarith),
      not_le]
    linarith

/-- The target of an overrun is not reached at all. -/
theorem StartsAt.not_reaches (ho : Overruns desired) (k : ℕ) :
    (coveredEast desired k).reachesEastOf (targetOf desired) = false := by
  rcases lt_or_ge ((k : ℤ) + 1) (rowColumns row) with hgap | hfull
  · exact h.not_reaches_open ho hgap
  · rcases le_or_gt (column % rowColumns row) 1 with hcolumn | hcolumn
    · exact h.not_reaches_antimeridian ho hcolumn hfull
    · exact h.not_reaches_inland ho hcolumn hfull

/-! ## Targets that are reached -/

/-- A target that ends within a turn, with a cell to spare, is reached by an open row. -/
theorem StartsAt.reaches_before_turn
    (hfit : cornerOffset desired + (targetOf desired).span
      ≤ 360 - rowWidth row + Bounds.tolerance) :
    ∃ k : ℕ, (k : ℤ) + 1 < rowColumns row
      ∧ (coveredEast desired k).reachesEastOf (targetOf desired) = true := by
  have hn := le_rowColumns row
  obtain ⟨k, hk⟩ : ∃ k : ℕ, (k : ℤ) + 2 = rowColumns row :=
    ⟨(rowColumns row - 2).toNat, by omega⟩
  refine ⟨k, by omega, (h.reaches_open_iff (by omega)).2 ?_⟩
  have hcount : ((k : ℕ) : ℚ) + 2 = rowColumns row := by exact_mod_cast hk
  have hturn := rowColumns_mul_rowWidth row
  rw [← hcount] at hturn
  push_cast
  linarith

/-- A target that does not end that soon, but is no overrun: its corner is not west of the origin, and
the origin is not the second cell of the globe. -/
theorem StartsAt.offset_nonneg (ho : ¬ Overruns desired)
    (hlong : 360 - rowWidth row + Bounds.tolerance
      < cornerOffset desired + (targetOf desired).span) :
    0 ≤ cornerOffset desired ∧ column % rowColumns row ≠ 1 := by
  have hw := le_rowWidth row
  have hn := le_rowColumns row
  have hc0 := Int.emod_nonneg column (show rowColumns row ≠ 0 by omega)
  obtain ⟨hwest0, -⟩ := Bounds.wellFormed_iff.1 (wellFormed_targetOf h.wellFormed)
  have hlon := h.west_eq
  have hedge := cellWest_eq row column
  unfold Overruns at ho
  rw [h.seamOffset_eq, not_lt] at ho
  split at ho
  · next hcolumn =>
    rcases (show column % rowColumns row = 0 ∨ column % rowColumns row = 1 by omega) with hc | hc
    · rw [hc] at hedge ⊢
      push_cast at hedge
      exact ⟨by linarith, by decide⟩
    · rw [hc] at ho
      push_cast at ho
      linarith
  · next hcolumn =>
    refine ⟨?_, by omega⟩
    have hfloor : (-1 : ℚ) < ⌊cornerOffset desired / rowWidth row⌋ := by nlinarith
    have hfloor' : 0 ≤ ⌊cornerOffset desired / rowWidth row⌋ := by
      have : -1 < ⌊cornerOffset desired / rowWidth row⌋ := by exact_mod_cast hfloor
      omega
    rwa [Int.le_floor, le_div_iff₀ (by linarith), Int.cast_zero, zero_mul] at hfloor'

/-- A target that ends within a turn from the origin is reached by the row that closes the ring,
unless the origin is the second cell of the globe. -/
theorem StartsAt.reaches_at_turn (hoffset : 0 ≤ cornerOffset desired)
    (hcolumn : column % rowColumns row ≠ 1)
    (hfit : cornerOffset desired + (targetOf desired).span ≤ 360 + Bounds.tolerance) {j : ℕ}
    (hj : (j : ℤ) + 1 = rowColumns row) :
    (coveredEast desired j).reachesEastOf (targetOf desired) = true := by
  have hw := le_rowWidth row
  have hhigh := h.offset_lt
  obtain ⟨-, hwest⟩ := west_span_closed row column hj
  have hsecond : cellWest row column ≠ -180 + rowWidth row := by
    intro hstart
    rw [cellWest_eq, add_right_inj, mul_eq_right₀ (by linarith)] at hstart
    exact hcolumn (by exact_mod_cast hstart)
  rw [if_neg hsecond] at hwest
  have heast : SameMeridian (cellWest row column + cornerOffset desired) (targetOf desired).west := by
    rw [h.west_eq]
    exact .refl _
  exact (h.reaches_closed_iff hj.ge hwest heast hoffset (by linarith)).2 hfit

/-- A target that ends beyond a turn from the origin, but is no overrun, laps its row and is reached
when the row begins at the last edge that is not east of the corner. -/
theorem StartsAt.reaches_in_second_turn (ho : ¬ Overruns desired)
    (hoffset : 0 ≤ cornerOffset desired) (hcolumn : column % rowColumns row ≠ 1)
    (hlong : 360 + Bounds.tolerance < cornerOffset desired + (targetOf desired).span) {j : ℕ}
    (hj : (j : ℤ) + 1 = rowColumns row) :
    Laps desired ∧ ∃ m : ℕ, (m : ℚ) * rowWidth row ≤ cornerOffset desired
      ∧ (coveredEast desired (j + m + 1)).reachesEastOf (targetOf desired) = true := by
  have hw := le_rowWidth row
  have hpos : 0 < rowWidth row := by linarith
  have hhigh := h.offset_lt
  have hn := le_rowColumns row
  have hc0 := Int.emod_nonneg column (show rowColumns row ≠ 0 by omega)
  obtain ⟨-, hwest1, -⟩ := Bounds.wellFormed_iff.1 (wellFormed_targetOf h.wellFormed)
  have hlon := h.west_eq
  have hedge := cellWest_eq row column
  obtain ⟨m, hm⟩ : ∃ m : ℕ, (m : ℤ) = ⌊cornerOffset desired / rowWidth row⌋ :=
    ⟨_, Int.toNat_of_nonneg (Int.floor_nonneg.2 (div_nonneg hoffset hpos.le))⟩
  have hlast : (m : ℚ) * rowWidth row ≤ cornerOffset desired := by
    have hle := Int.le_floor.1 hm.le
    rwa [Int.cast_natCast, le_div_iff₀ hpos] at hle
  unfold Overruns at ho
  rw [h.seamOffset_eq, not_lt, ← hm, Int.cast_natCast] at ho
  split at ho
  · -- in the first column the edge stays where it is
    have hc : column % rowColumns row = 0 := by omega
    rw [hc, Int.cast_zero, zero_mul, neg_zero] at ho
    linarith
  · next hinland =>
    have hc : (2 : ℚ) ≤ (column % rowColumns row : ℤ) := by
      exact_mod_cast (show 2 ≤ column % rowColumns row by omega)
    have hm1 : (1 : ℚ) ≤ m := by
      have : (0 : ℚ) < m := by
        by_contra hzero
        nlinarith
      exact_mod_cast this
    refine ⟨⟨?_, hlong⟩, m, hlast, ?_⟩
    · rw [h.origin_eq, Bucket.width_ofCell]
      nlinarith
    · have hbefore : cellWest row column + m * rowWidth row < 180 := by linarith
      have hwest := west_second_turn (by nlinarith) hj hbefore
      have heast : SameMeridian (cellWest row column + m * rowWidth row
          + (cornerOffset desired - m * rowWidth row)) (targetOf desired).west :=
        ⟨0, by rw [hlon]; push_cast; ring⟩
      exact (h.reaches_closed_iff (by push_cast; omega) hwest heast (by linarith) (by nlinarith)).2
        (by linarith)

/-- A target that is no overrun is reached by a row that is at most a cell longer than a turn and the
way to the corner, and no longer than a turn if it does not lap. -/
theorem StartsAt.exists_reaches (ho : ¬ Overruns desired) :
    ∃ k : ℕ, (coveredEast desired k).reachesEastOf (targetOf desired) = true
      ∧ ((k + 1 : ℕ) : ℚ) * rowWidth row ≤ 360 + cornerOffset desired + rowWidth row
      ∧ (¬ Laps desired → (k : ℤ) + 1 ≤ rowColumns row) := by
  have hw := le_rowWidth row
  have htol := snapTolerance_eq
  have hlow := h.lt_offset
  have hturn := rowColumns_mul_rowWidth row
  have hn := le_rowColumns row
  -- a row that is no longer than a turn
  have hwithin : ∀ k : ℕ, (k : ℤ) + 1 ≤ rowColumns row →
      ((k + 1 : ℕ) : ℚ) * rowWidth row ≤ 360 + cornerOffset desired + rowWidth row := by
    intro k hk
    have hkq : ((k + 1 : ℕ) : ℚ) ≤ rowColumns row := by exact_mod_cast hk
    nlinarith
  obtain ⟨j, hj⟩ : ∃ j : ℕ, (j : ℤ) + 1 = rowColumns row :=
    ⟨(rowColumns row - 1).toNat, by omega⟩
  rcases le_or_gt (cornerOffset desired + (targetOf desired).span)
    (360 - rowWidth row + Bounds.tolerance) with hfit | hlong
  · obtain ⟨k, hk, hreach⟩ := h.reaches_before_turn hfit
    exact ⟨k, hreach, hwithin k hk.le, fun _ => hk.le⟩
  obtain ⟨hoffset, hcolumn⟩ := h.offset_nonneg ho hlong
  rcases le_or_gt (cornerOffset desired + (targetOf desired).span) (360 + Bounds.tolerance)
    with hfit | hlonger
  · exact ⟨j, h.reaches_at_turn hoffset hcolumn hfit hj, hwithin j hj.le, fun _ => hj.le⟩
  · obtain ⟨hlaps, m, hm, hreach⟩ := h.reaches_in_second_turn ho hoffset hcolumn hlonger hj
    refine ⟨j + m + 1, hreach, ?_, fun hno => absurd hlaps hno⟩
    have hjq : (j : ℚ) + 1 = rowColumns row := by exact_mod_cast hj
    rw [← hjq] at hturn
    push_cast
    linarith

/-- Rows that are a cell longer than a turn and the way to the corner do not meet the limit. -/
theorem StartsAt.le_maxGridExtent {k : ℕ}
    (hk : ((k + 1 : ℕ) : ℚ) * rowWidth row ≤ 360 + cornerOffset desired + rowWidth row) :
    k ≤ maxGridExtent - 1 := by
  have hw := le_rowWidth row
  have hhigh := h.offset_lt
  have hmax : maxGridExtent = 4096 := rfl
  have hfew : (k : ℚ) < 2976 := by
    push_cast at hk
    nlinarith
  have : k < 2976 := by exact_mod_cast hfew
  omega

end Start

/-- There are too many columns exactly when the target overruns. -/
theorem StartsAt.tooLarge_columns_iff (h : StartsAt desired row column) {n : ℕ} :
    resolve desired = .error (.tooLarge .columns n) ↔ n = maxGridExtent + 1 ∧ Overruns desired := by
  rw [resolve_eq_tooLarge_columns_iff h.wellFormed.isEmpty_eq_false]
  refine and_congr_right fun _ => ⟨fun hnone => ?_, fun ho k _ => h.not_reaches ho k⟩
  by_contra ho
  obtain ⟨k, hreach, hlength, -⟩ := h.exists_reaches ho
  rw [hnone k (h.le_maxGridExtent hlength)] at hreach
  cases hreach

/-- A rectangle is too large exactly when its target overruns, and this is always said of the columns.
Otherwise the loop eastward ends, at most a cell beyond a turn and the way to the corner, and within a
turn if the target does not lap; then the loop northward finds a grid that ends at the pole at most,
or meets a row of another width before. -/
theorem resolve_tooLarge_iff (hdesired : desired.WellFormed) (hsouth : -90 ≤ desired.south)
    (hnorth : desired.north ≤ 90) :
    (∀ axis n, resolve desired = .error (.tooLarge axis n)
      ↔ axis = .columns ∧ n = maxGridExtent + 1 ∧ Overruns desired)
    ∧ (¬ Overruns desired →
      (∃ k, growEast (targetOf desired) (maxGridExtent - 1) (originOf desired).bounds
            (originOf desired) = .ok (eastOf ℚ (originOf desired) k, coveredEast desired k)
        ∧ ((k + 1 : ℕ) : ℚ) * (originOf desired).width
          ≤ 360 + cornerOffset desired + (originOf desired).width
        ∧ (¬ Laps desired →
          ((k + 1 : ℕ) : ℚ) * (originOf desired).width ≤ 360 ∧ k + 1 ≤ 2880)
        ∧ ∀ grid, resolve desired = .ok (some grid) → grid.columns = k + 1)
      ∧ ((∃ grid, resolve desired = .ok (some grid)
            ∧ (originOf desired).row + grid.rows ≤ 1440)
        ∨ ∃ found lat, resolve desired = .error (.widthChange (originOf desired).width found lat)
          ∧ lat < 90)) := by
  obtain ⟨row, column, h⟩ := exists_startsAt hdesired hsouth
  have hcells : ¬ Overruns desired →
      (∃ grid, resolve desired = .ok (some grid) ∧ (originOf desired).row + grid.rows ≤ 1440)
        ∨ ∃ found lat, resolve desired = .error (.widthChange (originOf desired).width found lat)
          ∧ lat < 90 := fun ho =>
    resolve_grid_or_widthChange hdesired hsouth hnorth fun n hlarge =>
      ho (h.tooLarge_columns_iff.1 hlarge).2
  refine ⟨fun axis n => ?_, fun ho => ⟨?_, hcells ho⟩⟩
  · cases axis with
    | columns => rw [h.tooLarge_columns_iff, eq_self, true_and]
    | rows =>
      refine ⟨fun hlarge => ?_, fun hrows => by cases hrows.1⟩
      by_cases ho : Overruns desired
      · rw [h.tooLarge_columns_iff.2 ⟨rfl, ho⟩] at hlarge
        cases hlarge
      · rcases hcells ho with ⟨grid, hgrid, -⟩ | ⟨found, lat, hchange, -⟩
        · rw [hgrid] at hlarge
          cases hlarge
        · rw [hchange] at hlarge
          cases hlarge
  · have hw := le_rowWidth row
    have hmany : rowColumns row ≤ 2880 := by
      have hn := le_rowColumns row
      nlinarith [rowColumns_mul_rowUnits row, rowUnits_pos row]
    obtain ⟨k, hreach, hlength, hturn⟩ := h.exists_reaches ho
    obtain ⟨j, hj, hgrow, hgrids⟩ :=
      exists_growEast_of_reaches (h.le_maxGridExtent hlength) hreach
    have hjq : ((j + 1 : ℕ) : ℚ) ≤ (k + 1 : ℕ) := by exact_mod_cast Nat.succ_le_succ hj
    rw [h.origin_eq, Bucket.width_ofCell]
    rw [h.origin_eq] at hgrow
    refine ⟨j, hgrow, by nlinarith, fun hno => ?_, hgrids⟩
    have hfit : ((j + 1 : ℕ) : ℤ) ≤ rowColumns row := by
      have := hturn hno
      omega
    exact ⟨(mul_rowWidth_le_turn_iff row (j + 1)).2 hfit, by omega⟩

/-- The ring next to the north pole, from the antimeridian on: a turn has thirty columns, and the pole
is four rows away. -/
theorem resolve_tooLarge_iff_at_pole :
    (⟨-180, 360, 8955 / 100, 90⟩ : Bounds ℚ).WellFormed
      ∧ ¬ Overruns ⟨-180, 360, 8955 / 100, 90⟩
      ∧ ∃ grid, resolve (⟨-180, 360, 8955 / 100, 90⟩ : Bounds ℚ) = .ok (some grid)
        ∧ grid.columns ≤ 30 ∧ grid.rows ≤ 4 := by
  have hdesired : (⟨-180, 360, 8955 / 100, 90⟩ : Bounds ℚ).WellFormed := by decide +kernel
  have hno : ¬ Overruns ⟨-180, 360, 8955 / 100, 90⟩ := by decide +kernel
  have hlaps : ¬ Laps ⟨-180, 360, 8955 / 100, 90⟩ := by decide +kernel
  have hwidth : ((originOf (⟨-180, 360, 8955 / 100, 90⟩ : Bounds ℚ)).width : ℚ) = 12 := by
    decide +kernel
  have hrow : (originOf (⟨-180, 360, 8955 / 100, 90⟩ : Bounds ℚ)).row = 1436 := by decide +kernel
  obtain ⟨grid, hgrid, -⟩ := exists_of_resolvesWith
    (show resolvesWith (⟨-180, 360, 8955 / 100, 90⟩ : Bounds ℚ) (fun _ => true) = true by
      decide +kernel)
  obtain ⟨-, hfound⟩ := resolve_tooLarge_iff hdesired (by norm_num) (by norm_num)
  obtain ⟨⟨k, -, -, hturn, hcolumns⟩, hrows⟩ := hfound hno
  refine ⟨hdesired, hno, grid, hgrid, ?_, ?_⟩
  · have hfit := (hturn hlaps).1
    rw [hwidth] at hfit
    rw [hcolumns grid hgrid]
    have : ((k + 1 : ℕ) : ℚ) ≤ 30 := by linarith
    exact_mod_cast this
  · rw [hgrid, hrow] at hrows
    rcases hrows with ⟨found, hsame, hpole⟩ | ⟨found, lat, hchange, -⟩
    · cases hsame
      omega
    · cases hchange

/-- A target almost all the way around the pole that starts inside its first bucket: the thirty
columns of its row go around the globe, but the target, seen from each edge of theirs, ends beyond a
turn. The whole ring has a grid of these thirty. -/
theorem resolve_too_large_within_ring :
    ∃ desired : Bounds ℚ, desired = ⟨53 / 10, 359999 / 1000, 8955 / 100, 8956 / 100⟩
      ∧ (desired.WellFormed ∧ -90 ≤ desired.south ∧ desired.north ≤ 90)
      ∧ resolve desired = .error (.tooLarge .columns 4097)
      ∧ ∃ grid, resolve (⟨0, 360, 8955 / 100, 8956 / 100⟩ : Bounds ℚ) = .ok (some grid)
        ∧ grid.columns = 30 := by
  have hdesired : (⟨53 / 10, 359999 / 1000, 8955 / 100, 8956 / 100⟩ : Bounds ℚ).WellFormed := by
    decide +kernel
  have hoverruns : Overruns ⟨53 / 10, 359999 / 1000, 8955 / 100, 8956 / 100⟩ := by decide +kernel
  obtain ⟨row, column, hstart⟩ := exists_startsAt hdesired (by norm_num)
  obtain ⟨grid, hgrid, htest⟩ := exists_of_resolvesWith
    (show resolvesWith (⟨0, 360, 8955 / 100, 8956 / 100⟩ : Bounds ℚ)
      (fun grid => decide (grid.columns = 30)) = true by decide +kernel)
  exact ⟨_, rfl, ⟨hdesired, by norm_num, by norm_num⟩,
    hstart.tooLarge_columns_iff.2 ⟨rfl, hoverruns⟩, grid, hgrid, of_decide_eq_true htest⟩

end Orthomosaic.BucketGrid
