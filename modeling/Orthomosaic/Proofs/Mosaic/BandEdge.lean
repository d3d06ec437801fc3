import Orthomosaic.Proofs.Mosaic.WholeCells

/-!
# Where a grid stops for a change of widths

The rows of the globe lie in bands of one width. `BucketGrid.resolve` adds rows in the band of its
origin until they come within the tolerance of the target's northern edge. Inside the band, what some
rows cover ends where they do (`reachesNorthOf_band_iff`), so the target alone decides whether the
loop ends well or meets the first row beyond the band (`resolve_refuses_beyond_band`). A band of the
same width in the other hemisphere makes no difference, as the rows between the two are met first.
-/

namespace Orthomosaic

open Scalar

/-- The edge below a row is at most at the pole exactly if the row is one of the globe or the one
that would follow. -/
theorem rowSouth_le_pole_iff (row : ℤ) : rowSouth row ≤ 90 ↔ row ≤ 1440 := by
  unfold rowSouth
  constructor
  · intro h
    have : (row : ℚ) ≤ (1440 : ℤ) := by
      push_cast
      linarith
    exact_mod_cast this
  · intro h
    have : (row : ℚ) ≤ (1440 : ℤ) := by exact_mod_cast h
    push_cast at this
    linarith

/-! ## Bands -/

namespace Bucket

/-- The width of the row some rows north of a bucket. -/
def widthNorth (b : Bucket) (rows : ℕ) : ℚ :=
  bucketSpan (b.centerLat + (rows : ℚ) * bucketHeight)

/-- The northern edge of some rows, of which a bucket's is the first. -/
def northEdge (b : Bucket) (rows : ℕ) : ℚ :=
  b.south + (rows : ℚ) / 8

theorem northEdge_le_of_le (b : Bucket) {rows rows' : ℕ} (h : rows ≤ rows') :
    b.northEdge rows ≤ b.northEdge rows' := by
  have : (rows : ℚ) ≤ rows' := by exact_mod_cast h
  unfold northEdge
  linarith

/-- The rows from that of a bucket northward that have its width and follow one another, all of them:
the next one has another width, or they end at the pole. -/
structure Band (b : Bucket) (rows : ℕ) : Prop where
  rows_pos : 0 < rows
  northEdge_le : b.northEdge rows ≤ 90
  width_eq : ∀ r < rows, b.widthNorth r = b.width
  width_ne : b.northEdge rows < 90 → b.widthNorth rows ≠ b.width

variable {b : Bucket} {row column : ℤ} {rows rows' : ℕ}

/-- No run of rows of one width is longer than the band. -/
theorem Band.le (h : b.Band rows) (h' : b.Band rows') : rows' ≤ rows := by
  by_contra hlt
  rw [not_le] at hlt
  have hlonger : (rows : ℚ) < rows' := by exact_mod_cast hlt
  have hedge := h'.northEdge_le
  unfold northEdge at hedge
  exact h.width_ne (by unfold northEdge; linarith) (h'.width_eq rows hlt)

theorem Band.unique (h : b.Band rows) (h' : b.Band rows') : rows' = rows :=
  le_antisymm (h.le h') (h'.le h)

theorem widthNorth_ofCell (row column : ℤ) (r : ℕ) :
    (ofCell row column).widthNorth r = rowWidth (row + r) :=
  BucketGrid.bucketSpan_center row column r

/-- The northern edge of some rows from that of a cell. -/
theorem northEdge_ofCell (h0 : 0 ≤ row) (h1 : row < 1440) (column : ℤ) (rows : ℕ) :
    (ofCell row column).northEdge rows = rowSouth (row + rows) := by
  unfold northEdge
  rw [(edges_ofCell h0 h1 column).2]
  unfold rowSouth
  push_cast
  ring

/-- Some rows end below the pole exactly if another row of the globe follows. -/
theorem northEdge_lt_pole_iff (h0 : 0 ≤ row) (h1 : row < 1440) (column : ℤ) (rows : ℕ) :
    (ofCell row column).northEdge rows < 90 ↔ row + rows < 1440 := by
  rw [northEdge_ofCell h0 h1]
  unfold rowSouth
  constructor
  · intro h
    have : ((row + rows : ℤ) : ℚ) < (1440 : ℤ) := by
      push_cast at h ⊢
      linarith
    exact_mod_cast this
  · intro h
    have : ((row + rows : ℤ) : ℚ) < (1440 : ℤ) := by exact_mod_cast h
    push_cast at this ⊢
    linarith

/-- The band of a cell, told by its rows. -/
theorem band_ofCell_iff (h0 : 0 ≤ row) (h1 : row < 1440) :
    (ofCell row column).Band rows
      ↔ 0 < rows ∧ row + rows ≤ 1440 ∧ (∀ r < rows, rowUnits (row + r) = rowUnits row)
        ∧ (row + rows < 1440 → rowUnits (row + rows) ≠ rowUnits row) := by
  have hedge := northEdge_lt_pole_iff h0 h1 column rows
  have hwidth : ∀ r : ℕ, (ofCell row column).widthNorth r = (ofCell row column).width
      ↔ rowUnits (row + r) = rowUnits row := by
    intro r
    rw [widthNorth_ofCell, width_ofCell, rowWidth_eq_iff]
  constructor
  · intro h
    have hpole := h.northEdge_le
    rw [northEdge_ofCell h0 h1, rowSouth_le_pole_iff] at hpole
    exact ⟨h.rows_pos, hpole, fun r hr => (hwidth r).1 (h.width_eq r hr),
      fun hlt => mt (hwidth rows).2 (h.width_ne (hedge.2 hlt))⟩
  · rintro ⟨hpos, hpole, hsame, hother⟩
    rw [← rowSouth_le_pole_iff, ← northEdge_ofCell h0 h1 column] at hpole
    exact ⟨hpos, hpole, fun r hr => (hwidth r).2 (hsame r hr),
      fun hlt => mt (hwidth rows).1 (hother (hedge.1 hlt))⟩

/-- Every cell of the globe has a band. -/
theorem exists_band_ofCell (h0 : 0 ≤ row) (h1 : row < 1440) (column : ℤ) :
    ∃ rows, (ofCell row column).Band rows := by
  classical
  let Ends (rows : ℕ) : Prop :=
    0 < rows ∧ (row + rows = 1440 ∨ rowUnits (row + rows) ≠ rowUnits row)
  have hends : ∃ rows, Ends rows := ⟨(1440 - row).toNat, by omega, .inl (by omega)⟩
  have hfirst : ∀ r < Nat.find hends, ¬ Ends r := fun r hr => Nat.find_min hends hr
  obtain ⟨hpos, hend⟩ := Nat.find_spec hends
  have hbefore : ∀ r < Nat.find hends,
      r = 0 ∨ row + r ≠ 1440 ∧ rowUnits (row + r) = rowUnits row := by
    intro r hr
    rcases Nat.eq_zero_or_pos r with hzero | hr0
    · exact .inl hzero
    · have hnot := hfirst r hr
      exact .inr ⟨fun h => hnot ⟨hr0, .inl h⟩, not_not.1 fun h => hnot ⟨hr0, .inr h⟩⟩
  refine ⟨Nat.find hends, (band_ofCell_iff h0 h1).2 ⟨hpos, ?_, ?_, ?_⟩⟩
  · by_contra hbeyond
    rcases hbefore (1440 - row).toNat (by omega) with h | h
    · omega
    · exact h.1 (by omega)
  · intro r hr
    rcases hbefore r hr with rfl | h
    · rw [Nat.cast_zero, add_zero]
    · exact h.2
  · intro hlt
    exact hend.resolve_left hlt.ne

end Bucket

namespace BucketGrid

variable {desired : Bounds ℚ} {row column : ℤ} {rows : ℕ}

/-! ## The first row -/

/-- Unless there are too many columns, the loop northward decides. -/
theorem exists_resolve_of_growNorth (hdesired : desired.isEmpty = false)
    (hcolumns : ∀ n, resolve desired ≠ .error (.tooLarge .columns n)) :
    ∃ k, ∀ answer, growNorth (targetOf desired) (originOf desired) (k + 1) (maxGridExtent - 1)
        (coveredEast desired k) (originOf desired) = answer →
      (∀ e, answer = .error e → resolve desired = .error e)
        ∧ ∀ north rows covered, answer = .ok (north, rows, covered) →
          ∃ grid, resolve desired = .ok (some grid) ∧ grid.rows = rows + 1 := by
  rw [resolve_of_not_isEmpty hdesired] at hcolumns ⊢
  cases heast : growEast (targetOf desired) (maxGridExtent - 1) (originOf desired).bounds
      (originOf desired) with
  | error e =>
    rw [heast, growEast_eq_error heast] at hcolumns
    exact absurd rfl (hcolumns _)
  | ok found =>
    obtain ⟨east, covered⟩ := found
    obtain ⟨k, -, rfl, rfl, -⟩ := growEast_eq_ok heast
    refine ⟨k, fun answer hanswer => ?_⟩
    unfold coveredEast at hanswer
    dsimp only
    rw [length_eastOf, hanswer]
    constructor
    · rintro e rfl
      rfl
    · rintro north rows covered rfl
      exact ⟨_, rfl, rfl⟩

/-! ## The rows of a band -/

/-- The rows of a band are rows of the globe of one width. -/
theorem rows_north_of_band (h0 : 0 ≤ row) (h1 : row < 1440)
    (hband : (Bucket.ofCell row column).Band rows) {k : ℕ} (hk : k < rows) :
    ∀ j < k, row + j + 1 < 1440 ∧ rowUnits (row + j + 1) = rowUnits row := by
  intro j hj
  obtain ⟨-, hpole, hsame, -⟩ := (Bucket.band_ofCell_iff h0 h1).1 hband
  have hnext := hsame (j + 1) (by omega)
  rw [Nat.cast_succ, ← add_assoc] at hnext
  exact ⟨by omega, hnext⟩

/-- Some rows of the band reach the target exactly if it ends at most the tolerance north of them. -/
theorem reachesNorthOf_band_iff (h0 : 0 ≤ row) (h1 : row < 1440)
    (horigin : originOf desired = Bucket.ofCell row column)
    (hband : (originOf desired).Band rows) {columns k : ℕ} (hcolumns : 0 < columns) (hk : k < rows)
    (east : ℕ) :
    (cover (coveredEast desired east) (northOf ℚ columns (originOf desired) k)).reachesNorthOf
        (targetOf desired) = true
      ↔ (targetOf desired).north ≤ (originOf desired).northEdge (k + 1) + Bounds.tolerance := by
  rw [horigin] at hband
  obtain ⟨hwf, hs, hn⟩ := lat_cover_row row column east
  obtain ⟨-, hnorth⟩ := lat_cover_cellRows hwf hs hn column hcolumns k
  rw [coveredEast_eq h0 h1 horigin, horigin,
    northOf_ofCell h0 column columns (rows_north_of_band h0 h1 hband hk),
    Bounds.reachesNorthOf_iff (wellFormed_cover hwf (wellFormed_cellRows _ _ _ _)), hnorth,
    Bucket.northEdge_ofCell h0 h1]
  push_cast
  rw [add_right_comm, ← add_assoc]

/-- The rows of the band keep the width of the first. -/
theorem width_startNorth_band (h0 : 0 ≤ row) (h1 : row < 1440)
    (horigin : originOf desired = Bucket.ofCell row column)
    (hband : (originOf desired).Band rows) {k : ℕ} (hk : k < rows) :
    ¬ Bounds.tolerance < magnitude
      (((startNorth ℚ (originOf desired) k).width : ℚ) - (originOf desired).width) := by
  rw [horigin] at hband ⊢
  obtain ⟨-, -, hsame, -⟩ := (Bucket.band_ofCell_iff h0 h1).1 hband
  rw [startNorth_ofCell h0 column (rows_north_of_band h0 h1 hband hk), Bucket.width_ofCell,
    Bucket.width_ofCell, rowWidth_congr (hsame k hk), sub_self, magnitude_eq_abs, abs_zero, not_lt]
  exact Bounds.tolerance_pos.le

/-- The step out of a band leads to the next row, in whatever column. -/
theorem exists_startNorth_beyond_band (h0 : 0 ≤ row) (h1 : row < 1440)
    (hband : (Bucket.ofCell row column).Band rows) (hpole : row + rows < 1440) :
    ∃ column', startNorth ℚ (Bucket.ofCell row column) rows
      = Bucket.ofCell (row + rows) column' := by
  obtain ⟨k, rfl⟩ := Nat.exists_eq_add_of_le' hband.rows_pos
  have hstep : startNorth ℚ (Bucket.ofCell row column) (k + 1)
      = (startNorth ℚ (Bucket.ofCell row column) k).sibling ℚ 0 1 :=
    Function.iterate_succ_apply' _ k _
  obtain ⟨column', hnext⟩ := Bucket.exists_sibling_ofCell (row + k) column 0 1
  push_cast at hpole
  refine ⟨column', ?_⟩
  rw [hstep, startNorth_ofCell h0 column (rows_north_of_band h0 h1 hband (Nat.lt_succ_self k)),
    hnext, Bucket.clampRow_of_mem (by omega) (by omega), Nat.cast_succ, add_assoc]

/-! ## The edge of the band decides -/

/-- A target that ends beyond the band is refused at the first row of another width. -/
theorem resolve_eq_widthChange (h0 : 0 ≤ row) (h1 : row < 1440)
    (hdesired : desired.isEmpty = false)
    (hcolumns : ∀ n, resolve desired ≠ .error (.tooLarge .columns n))
    (horigin : originOf desired = Bucket.ofCell row column)
    (hband : (originOf desired).Band rows) (hnorth : (targetOf desired).north ≤ 90)
    (hbeyond : (originOf desired).northEdge rows + Bounds.tolerance < (targetOf desired).north) :
    resolve desired
      = .error (.widthChange (originOf desired).width ((originOf desired).widthNorth rows)
          ((originOf desired).centerLat + (rows : ℚ) * bucketHeight)) := by
  have htol := Bounds.tolerance_pos
  have hmax : maxGridExtent = 4096 := rfl
  have hcell := hband
  rw [horigin] at hcell
  obtain ⟨hpos, -, -, hother⟩ := (Bucket.band_ofCell_iff h0 h1).1 hcell
  have hpole : row + rows < 1440 := by
    rw [horigin] at hbeyond
    exact (Bucket.northEdge_lt_pole_iff h0 h1 column rows).1 (by linarith)
  obtain ⟨column', hnext⟩ := exists_startNorth_beyond_band h0 h1 hcell hpole
  have hunits := hother hpole
  obtain ⟨k, hresolve⟩ := exists_resolve_of_growNorth hdesired hcolumns
  obtain ⟨m, rfl⟩ := Nat.exists_eq_add_of_le' hpos
  have hshort : ∀ j ≤ m, (cover (coveredEast desired k)
      (northOf ℚ (k + 1) (originOf desired) j)).reachesNorthOf (targetOf desired) = false := by
    intro j hj
    rw [← Bool.not_eq_true, reachesNorthOf_band_iff h0 h1 horigin hband (Nat.succ_pos k)
      (Nat.lt_succ_of_le hj), not_le]
    exact (add_le_add_left (Bucket.northEdge_le_of_le _ (Nat.succ_le_succ hj)) _).trans_lt hbeyond
  have hsame : ∀ j < m, ¬ Bounds.tolerance < magnitude
      (((startNorth ℚ (originOf desired) (j + 1)).width : ℚ) - (originOf desired).width) :=
    fun j hj => width_startNorth_band h0 h1 horigin hband (Nat.succ_lt_succ hj)
  have hchange : Bounds.tolerance < magnitude
      (((startNorth ℚ (originOf desired) (m + 1)).width : ℚ) - (originOf desired).width) := by
    rw [horigin, hnext, Bucket.width_ofCell, Bucket.width_ofCell]
    exact not_not.1 (mt rowUnits_eq_of_width hunits)
  have hgrow := growNorth_of_widthChange (show m < maxGridExtent - 1 by omega) hshort hsame hchange
  have hlat : ((Bucket.ofCell (row + (m + 1 : ℕ)) column').centerLat : ℚ)
      = (Bucket.ofCell row column).centerLat + ((m + 1 : ℕ) : ℚ) * bucketHeight := by
    rw [Bucket.centerLat_ofCell, Bucket.centerLat_ofCell, Bucket.bucketHeight_eq]
    unfold rowSouth
    push_cast
    ring
  rw [(hresolve _ hgrow).1 _ rfl, horigin, hnext, hlat, Bucket.widthNorth_ofCell,
    Bucket.width_ofCell, Bucket.width_ofCell]

/-- A target that ends in the band has a grid of rows of the band. -/
theorem exists_resolve_of_le_northEdge (h0 : 0 ≤ row) (h1 : row < 1440)
    (hdesired : desired.isEmpty = false)
    (hcolumns : ∀ n, resolve desired ≠ .error (.tooLarge .columns n))
    (horigin : originOf desired = Bucket.ofCell row column)
    (hband : (originOf desired).Band rows)
    (hwithin : (targetOf desired).north ≤ (originOf desired).northEdge rows + Bounds.tolerance) :
    ∃ grid, resolve desired = .ok (some grid) ∧ grid.rows ≤ rows := by
  classical
  have hmax : maxGridExtent = 4096 := rfl
  have hcell := hband
  rw [horigin] at hcell
  obtain ⟨hpos, hend, -, -⟩ := (Bucket.band_ofCell_iff h0 h1).1 hcell
  obtain ⟨k, hresolve⟩ := exists_resolve_of_growNorth hdesired hcolumns
  obtain ⟨m, rfl⟩ := Nat.exists_eq_add_of_le' hpos
  -- the loop stops at the first of the rows that reaches the target
  have hreaches : ∃ j, (targetOf desired).north
      ≤ (originOf desired).northEdge (j + 1) + Bounds.tolerance := ⟨m, hwithin⟩
  have hlast : Nat.find hreaches ≤ m := Nat.find_min' hreaches hwithin
  have hreach := (reachesNorthOf_band_iff h0 h1 horigin hband (Nat.succ_pos k)
    (Nat.lt_succ_of_le hlast) k).2 (Nat.find_spec hreaches)
  have hshort : ∀ j < Nat.find hreaches, (cover (coveredEast desired k)
      (northOf ℚ (k + 1) (originOf desired) j)).reachesNorthOf (targetOf desired) = false := by
    intro j hj
    rw [← Bool.not_eq_true, reachesNorthOf_band_iff h0 h1 horigin hband (Nat.succ_pos k) (by omega)]
    exact Nat.find_min hreaches hj
  have hsame : ∀ j < Nat.find hreaches, ¬ Bounds.tolerance < magnitude
      (((startNorth ℚ (originOf desired) (j + 1)).width : ℚ) - (originOf desired).width) :=
    fun j hj => width_startNorth_band h0 h1 horigin hband (by omega)
  have hgrow := growNorth_of_reaches (show Nat.find hreaches ≤ maxGridExtent - 1 by omega) hreach
    hshort hsame
  obtain ⟨grid, hgrid, hrows⟩ := (hresolve _ hgrow).2 _ _ _ rfl
  exact ⟨grid, hgrid, by omega⟩

/-- The cells of a grid of some rows of the band lie in the band. -/
theorem cells_in_band (h0 : 0 ≤ row) (h1 : row < 1440)
    (horigin : originOf desired = Bucket.ofCell row column) (hband : (originOf desired).Band rows)
    {grid : BucketGrid ℚ} (hblock : Block row column grid) (hrows : grid.rows ≤ rows) {cell : Bucket}
    (hmem : cell ∈ grid.cells) :
    (cell.width : ℚ) = (originOf desired).width ∧ (originOf desired).south ≤ cell.south
      ∧ cell.south + 1 / 8 ≤ (originOf desired).northEdge rows := by
  rw [horigin] at hband ⊢
  obtain ⟨-, hend, hsame, -⟩ := (Bucket.band_ofCell_iff h0 h1).1 hband
  rw [hblock.cells_eq] at hmem
  obtain ⟨r, hr, c, -, rfl⟩ := mem_cellRows.1 hmem
  rw [Bucket.width_ofCell, Bucket.width_ofCell, (Bucket.edges_ofCell h0 h1 column).2,
    (Bucket.edges_ofCell (by omega) (by omega) _).2, Bucket.northEdge_ofCell h0 h1, ← rowSouth_succ]
  exact ⟨rowWidth_congr (hsame r (by omega)), rowSouth_le (by omega), rowSouth_le (by omega)⟩

/-- Unless there are too many columns, a rectangle is refused exactly if its target ends more than the
tolerance north of the band of its origin, and the refusal names the width of the band, the width of
the first row beyond it and the latitude of that row's centre. Otherwise the rectangle has a grid, and
all cells of the grid lie in the band. -/
theorem resolve_refuses_beyond_band (hdesired : desired.WellFormed) (hsouth : -90 ≤ desired.south)
    (hnorth : desired.north ≤ 90)
    (hcolumns : ∀ n, resolve desired ≠ .error (.tooLarge .columns n)) :
    ∃ rows, (originOf desired).Band rows
      ∧ (∀ rows', (originOf desired).Band rows' → rows' = rows)
      ∧ ((originOf desired).northEdge rows + Bounds.tolerance < (targetOf desired).north →
        resolve desired
          = .error (.widthChange (originOf desired).width ((originOf desired).widthNorth rows)
              ((originOf desired).centerLat + (rows : ℚ) * bucketHeight)))
      ∧ ((targetOf desired).north ≤ (originOf desired).northEdge rows + Bounds.tolerance →
        ∃ grid, resolve desired = .ok (some grid) ∧ grid.rows ≤ rows
          ∧ ∀ cell ∈ grid.cells, (cell.width : ℚ) = (originOf desired).width
            ∧ (originOf desired).south ≤ cell.south
            ∧ cell.south + 1 / 8 ≤ (originOf desired).northEdge rows) := by
  obtain ⟨hs, hn⟩ := Bounds.shrunk_lat hdesired edgeInset_pos.le
  have hpole : (targetOf desired).north ≤ 90 := hn.trans hnorth
  obtain ⟨row, column, horigin, hat⟩ :=
    Bucket.containing_spec (targetOf desired).west (hsouth.trans hs)
  have h0 := hat.row_nonneg
  have h1 := hat.row_lt
  obtain ⟨rows, hband⟩ := Bucket.exists_band_ofCell h0 h1 column
  have hempty := hdesired.isEmpty_eq_false
  rw [← show originOf desired = Bucket.ofCell row column from horigin] at hband
  refine ⟨rows, hband, fun rows' => hband.unique, ?_, ?_⟩
  · exact resolve_eq_widthChange h0 h1 hempty hcolumns horigin hband hpole
  · intro hwithin
    obtain ⟨grid, hgrid, hrows⟩ :=
      exists_resolve_of_le_northEdge h0 h1 hempty hcolumns horigin hband hwithin
    have htol := Bounds.tolerance_pos
    have hblock := (resolved_of_resolve hgrid).block h0 h1 (by linarith) horigin
    exact ⟨grid, hgrid, hrows, fun cell => cells_in_band h0 h1 horigin hband hblock hrows⟩

/-- Whether the search for a grid gives up for the number of columns. -/
def tooManyColumns (desired : Bounds ℚ) : Bool :=
  match resolve desired with
  | .error (.tooLarge .columns _) => true
  | _ => false

/-- Across the equator, from a band of a quarter degree to the one of the same width in the other
hemisphere: the band ends at 22 degrees south, and the rows beyond it are narrower. -/
theorem resolve_refuses_across_equator :
    ∃ desired : Bounds ℚ, desired = ⟨0, 1 / 2, -45 / 2, 45 / 2⟩
      ∧ desired.WellFormed ∧ -90 ≤ desired.south ∧ desired.north ≤ 90
      ∧ (∀ n, resolve desired ≠ .error (.tooLarge .columns n))
      ∧ (originOf desired).Band 4
      ∧ resolve desired = .error (.widthChange (1 / 4) (1 / 8) (-22 + 1 / 16)) := by
  have hdesired : (⟨0, 1 / 2, -45 / 2, 45 / 2⟩ : Bounds ℚ).WellFormed :=
    Bounds.wellFormed_iff.2 ⟨by norm_num, by norm_num, by norm_num, by norm_num, by norm_num⟩
  have hcolumns : ∀ n, resolve (⟨0, 1 / 2, -45 / 2, 45 / 2⟩ : Bounds ℚ)
      ≠ .error (.tooLarge .columns n) := by
    intro n h
    have hfew : tooManyColumns ⟨0, 1 / 2, -45 / 2, 45 / 2⟩ = false := by decide +kernel
    rw [tooManyColumns, h] at hfew
    cases hfew
  have hfour : (originOf (⟨0, 1 / 2, -45 / 2, 45 / 2⟩ : Bounds ℚ)).Band 4 :=
    ⟨by decide, by decide +kernel, by decide +kernel, by decide +kernel⟩
  obtain ⟨rows, -, hunique, hrefused, -⟩ :=
    resolve_refuses_beyond_band hdesired (by norm_num) (by norm_num) hcolumns
  obtain rfl := hunique 4 hfour
  refine ⟨_, rfl, hdesired, by norm_num, by norm_num, hcolumns, hfour, ?_⟩
  rw [hrefused (by decide +kernel), Except.error.injEq, MosaicError.widthChange.injEq]
  decide +kernel

end BucketGrid

end Orthomosaic
