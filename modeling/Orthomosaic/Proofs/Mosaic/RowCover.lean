import Orthomosaic.Proofs.Mosaic.CellBlock

/-!
# The longitudes that an open row covers

As long as a run of cells leaves a gap, what it covers starts at the western edge of the first cell
and is as many widths long as there are cells, and further rows change nothing
(`Block.west_span_open`). The longitude of a point near the first cell is then measured from that
edge (`lonPosition_open`), which tells when the row reaches the eastern edge of a target.
-/

namespace Orthomosaic.BucketGrid

open Scalar

variable {row column : ℤ} {a b : Bounds ℚ}

/-! ## The way between two cells of a row -/

/-- Whole widths that are fewer than a row has do not fill the ring. -/
theorem mul_rowWidth_le {k : ℤ} (h : k < rowColumns row) :
    (k : ℚ) * rowWidth row ≤ 360 - rowWidth row := by
  have hw := le_rowWidth row
  have hturn := rowColumns_mul_rowWidth row
  have hk : (k : ℚ) + 1 ≤ rowColumns row := by exact_mod_cast h
  nlinarith

/-- The way east from a cell to one that follows it. -/
theorem eastward_cellWest {c : ℤ} (h0 : 0 ≤ c) (h1 : c < rowColumns row) :
    eastward (cellWest row column) (cellWest row (column + c)) = c * rowWidth row := by
  have hw := le_rowWidth row
  have hc : (0 : ℚ) ≤ c := by exact_mod_cast h0
  refine eastward_eq_of (sameMeridian_cellWest_add row column c) (by nlinarith) ?_
  linarith [mul_rowWidth_le h1]

/-- The way east from a cell around the globe to one that it follows. -/
theorem eastward_cellWest_back {c : ℤ} (h0 : 0 < c) (h1 : c < rowColumns row) :
    eastward (cellWest row (column + c)) (cellWest row column) = 360 - c * rowWidth row := by
  have hw := le_rowWidth row
  have hc : (1 : ℚ) ≤ c := by exact_mod_cast h0
  refine eastward_eq_of ?_ (by linarith [mul_rowWidth_le h1]) (by nlinarith)
  obtain ⟨k, hk⟩ := sameMeridian_cellWest_add row column c
  exact ⟨-k - 1, by push_cast; linarith⟩

/-! ## Runs that leave a gap -/

/-- The span from the edge of an open run of `m` cells that a cell next to it, or one of them, comes
to. -/
theorem spanFrom_open {m c : ℕ} (haw : a.west = cellWest row column)
    (has : a.span = m * rowWidth row) (hbw : b.west = cellWest row (column + c))
    (hbs : b.span = rowWidth row) (hgap : (max m (c + 1) : ℕ) < rowColumns row) :
    Bounds.spanFrom a b = (max m (c + 1) : ℕ) * rowWidth row := by
  have hw := le_rowWidth row
  have hfit := mul_rowWidth_le hgap
  rw [Int.cast_natCast] at hfit
  have hmax : (m : ℚ) ≤ (max m (c + 1) : ℕ) := by exact_mod_cast le_max_left m (c + 1)
  have hmax' : (c : ℚ) + 1 ≤ (max m (c + 1) : ℕ) := by exact_mod_cast le_max_right m (c + 1)
  have heast : eastward a.west b.west = c * rowWidth row := by
    rw [haw, hbw, eastward_cellWest (by omega) (by omega), Int.cast_natCast]
  rw [Bounds.spanFrom_eq, heast, has, hbs, min_eq_left]
  · rw [← add_one_mul, ← max_mul_of_nonneg _ _ (by linarith)]
    push_cast
    rfl
  · exact max_le (by nlinarith) (by nlinarith)

/-- From the edge of a later cell of the run, or of one next to it, it takes a whole turn. -/
theorem spanFrom_open_back {m c : ℕ} (haw : a.west = cellWest row column)
    (has : a.span = m * rowWidth row) (hbw : b.west = cellWest row (column + c)) (hpos : 0 < c)
    (hc : c ≤ m) (hgap : (c : ℤ) < rowColumns row) : Bounds.spanFrom b a = 360 := by
  have hw := le_rowWidth row
  have heast : eastward b.west a.west = 360 - c * rowWidth row := by
    rw [haw, hbw, eastward_cellWest_back (by omega) hgap, Int.cast_natCast]
  have hcm : (c : ℚ) ≤ m := by exact_mod_cast hc
  rw [Bounds.spanFrom_eq, heast, has]
  exact min_eq_right (le_max_of_le_right (by nlinarith))

/-- A cell next to an open run of `m` cells, or one of them, is absorbed without a move of the
western edge. -/
theorem absorb_open {m c : ℕ} (ha : a.isEmpty = false) (hb : b.isEmpty = false)
    (haw : a.west = cellWest row column) (has : a.span = m * rowWidth row)
    (hbw : b.west = cellWest row (column + c)) (hbs : b.span = rowWidth row) (hm : 1 ≤ m)
    (hc : c ≤ m) (hgap : (max m (c + 1) : ℕ) < rowColumns row) :
    (a.absorb b).west = a.west ∧ (a.absorb b).span = (max m (c + 1) : ℕ) * rowWidth row := by
  have hw := le_rowWidth row
  have hfit := mul_rowWidth_le hgap
  rw [Int.cast_natCast] at hfit
  have hkeep := spanFrom_open haw has hbw hbs hgap
  have hfirst : Bounds.startsAtSecond a b = false := by
    by_cases hpos : 0 < c
    · refine Bounds.startsAtSecond_of_lt ?_
      rw [hkeep, spanFrom_open_back haw has hbw hpos hc (by omega), Bounds.tolerance_eq]
      linarith
    · -- the first cell of the run starts where the run does
      obtain rfl : c = 0 := by omega
      have hmq : (1 : ℚ) ≤ m := by exact_mod_cast hm
      have hsame : max m (0 + 1) = m := by omega
      rw [hsame] at hkeep hfit
      have hwest : a.west = b.west := by
        rw [haw, hbw, Nat.cast_zero, add_zero]
      have heast : eastward b.west a.west = 0 := by
        rw [← hwest]
        exact eastward_eq_of (by rw [add_zero]; exact .refl _) (le_refl 0) (by norm_num)
      have htake : Bounds.spanFrom b a = m * rowWidth row := by
        rw [Bounds.spanFrom_eq, heast, has, hbs, zero_add, max_eq_right (by nlinarith),
          min_eq_left (by linarith)]
      rw [Bounds.startsAtSecond_of_eq (hkeep.trans htake.symm), htake, hkeep, hwest]
      exact Bounds.prefersSecond_self _ _
  rw [Bounds.absorb_eq ha hb, hfirst]
  exact ⟨rfl, hkeep⟩

/-- The western edge and the span of a cell. -/
theorem west_span_bounds {row row' : ℤ} (hunits : rowUnits row' = rowUnits row) (c : ℤ) :
    ((Bucket.ofCell row' c).bounds : Bounds ℚ).west = cellWest row c
      ∧ ((Bucket.ofCell row' c).bounds : Bounds ℚ).span = rowWidth row := by
  rw [Bucket.bounds_ofCell]
  refine ⟨Bucket.cellWest_congr hunits c, ?_⟩
  unfold rowWidth
  rw [hunits]

/-- A first row that leaves a gap covers as many widths as it has cells. -/
theorem west_span_row (column : ℤ) {k : ℕ} (hgap : (k : ℤ) + 1 < rowColumns row) :
    (cover (Bucket.ofCell row column).bounds (cellRun row (column + 1) k) : Bounds ℚ).west
        = cellWest row column
      ∧ (cover (Bucket.ofCell row column).bounds (cellRun row (column + 1) k) : Bounds ℚ).span
        = (k + 1 : ℕ) * rowWidth row := by
  induction k with
  | zero =>
    obtain ⟨hwest, hspan⟩ := west_span_bounds (rfl : rowUnits row = _) column
    exact ⟨hwest, by rw [Nat.zero_add, Nat.cast_one, one_mul]; exact hspan⟩
  | succ k ih =>
    push_cast at hgap
    obtain ⟨hwest, hspan⟩ := ih (by omega)
    obtain ⟨hwf, -⟩ := lat_cover_row row column k
    have hplace : column + 1 + (k : ℤ) = column + ((k + 1 : ℕ) : ℤ) := by
      push_cast
      ring
    have hcell := Bucket.wellFormed_bounds_ofCell row (column + (k + 1 : ℕ))
    obtain ⟨hwest', hspan'⟩ := west_span_bounds (rfl : rowUnits row = _) (column + (k + 1 : ℕ))
    have hmax : max (k + 1) (k + 1 + 1) = k + 1 + 1 := by omega
    have h := absorb_open hwf.isEmpty_eq_false hcell.isEmpty_eq_false hwest hspan
      hwest' hspan' (by omega) (le_refl (k + 1)) (by rw [hmax]; push_cast; omega)
    rw [hmax] at h
    rw [cellRun_succ_last, cover_append, cover_cons, cover_nil, hplace]
    exact ⟨h.1.trans hwest, h.2⟩

/-- Another row of no more cells changes nothing. -/
theorem west_span_next_row {row' : ℤ} {m k : ℕ} (ha : a.WellFormed)
    (haw : a.west = cellWest row column) (has : a.span = m * rowWidth row)
    (hgap : (m : ℤ) < rowColumns row) (hunits : rowUnits row' = rowUnits row) (hk : k ≤ m) :
    (cover a (cellRun row' column k)).west = cellWest row column
      ∧ (cover a (cellRun row' column k)).span = m * rowWidth row := by
  induction k with
  | zero => exact ⟨haw, has⟩
  | succ k ih =>
    obtain ⟨hwest, hspan⟩ := ih (by omega)
    have hwf : (cover a (cellRun row' column k)).WellFormed :=
      wellFormed_cover ha (wellFormed_cellRun row' column k)
    have hcell := Bucket.wellFormed_bounds_ofCell row' (column + k)
    obtain ⟨hwest', hspan'⟩ := west_span_bounds hunits (column + k)
    have hmax : max m (k + 1) = m := by omega
    have h := absorb_open hwf.isEmpty_eq_false hcell.isEmpty_eq_false hwest hspan hwest' hspan'
      (by omega) (by omega) (by rw [hmax]; exact hgap)
    rw [hmax] at h
    rw [cellRun_succ_last, cover_append, cover_cons, cover_nil]
    exact ⟨h.1.trans hwest, h.2⟩

/-- Further rows of no more cells change nothing. -/
theorem west_span_next_rows {row' : ℤ} {m k : ℕ} (ha : a.WellFormed)
    (haw : a.west = cellWest row column) (has : a.span = m * rowWidth row)
    (hgap : (m : ℤ) < rowColumns row)
    (hunits : ∀ r < k, rowUnits (row' + r) = rowUnits row) :
    (cover a (cellRows row' column m k)).west = cellWest row column
      ∧ (cover a (cellRows row' column m k)).span = m * rowWidth row := by
  induction k with
  | zero => exact ⟨haw, has⟩
  | succ k ih =>
    obtain ⟨hwest, hspan⟩ := ih fun r hr => hunits r (by omega)
    have hwf : (cover a (cellRows row' column m k)).WellFormed :=
      wellFormed_cover ha (wellFormed_cellRows row' column m k)
    rw [cellRows_succ_last, cover_append]
    exact west_span_next_row hwf hwest hspan hgap (hunits k (by omega)) (le_refl m)

/-- The units of the rows north of the first one of a block. -/
theorem Block.units_north {grid : BucketGrid ℚ} (h : Block row column grid) :
    ∀ r : ℕ, r < grid.rows - 1 → rowUnits (row + 1 + r) = rowUnits row := by
  intro r hr
  have hunits := h.units_eq (r + 1) (by omega)
  push_cast at hunits
  rw [← hunits]
  congr 1
  ring

/-- The longitudes of a block that leaves a gap. -/
theorem Block.west_span_open {grid : BucketGrid ℚ} (h : Block row column grid)
    (hgap : (grid.columns : ℤ) < rowColumns row) :
    grid.bounds.west = cellWest row column
      ∧ grid.bounds.span = grid.columns * rowWidth row := by
  have hpos := h.columns_pos
  have hcount : grid.columns - 1 + 1 = grid.columns := by omega
  have hrow : ((grid.columns - 1 : ℕ) : ℤ) + 1 < rowColumns row := by omega
  obtain ⟨hwest, hspan⟩ := west_span_row column hrow
  obtain ⟨hwf, -⟩ := lat_cover_row row column (grid.columns - 1)
  rw [hcount] at hspan
  rw [h.bounds_eq]
  exact west_span_next_rows hwf hwest hspan hgap h.units_north

/-- The latitudes of a block. -/
theorem Block.south_north {grid : BucketGrid ℚ} (h : Block row column grid) :
    grid.bounds.south = rowSouth row ∧ grid.bounds.north = rowSouth (row + grid.rows) := by
  have hpos := h.rows_pos
  obtain ⟨hwf, hs, hn⟩ := lat_cover_row row column (grid.columns - 1)
  obtain ⟨hs', hn'⟩ := lat_cover_cellRows hwf hs hn column h.columns_pos (grid.rows - 1)
  rw [h.bounds_eq]
  refine ⟨hs', hn'.trans ?_⟩
  congr 1
  omega

/-- The rectangle of a block is well-formed. -/
theorem Block.wellFormed_bounds {grid : BucketGrid ℚ} (h : Block row column grid) :
    grid.bounds.WellFormed := by
  obtain ⟨hwf, -⟩ := lat_cover_row row column (grid.columns - 1)
  rw [h.bounds_eq]
  exact wellFormed_cover hwf (wellFormed_cellRows (row + 1) column _ _)

/-! ## What a row reaches -/

/-- A point near the first cell is measured from its western edge by an arc that leaves a gap. -/
theorem lonPosition_open {m : ℕ} {t lon : ℚ} (haw : a.west = cellWest row column)
    (has : a.span = m * rowWidth row) (hgap : (m : ℤ) < rowColumns row)
    (ht0 : -snapTolerance < t) (ht1 : t < 12)
    (hlon : SameMeridian (cellWest row column + t) lon) : a.lonPosition lon = t := by
  have hw := le_rowWidth row
  have htol := snapTolerance_eq
  have hfit := mul_rowWidth_le hgap
  have hm : (0 : ℚ) ≤ m := Nat.cast_nonneg m
  have hspan : (0 : ℚ) ≤ m * rowWidth row := mul_nonneg hm (by linarith)
  rw [Int.cast_natCast] at hfit
  exact Bounds.lonPosition_eq_of (by linarith) (by linarith) (by linarith) (by linarith) (haw ▸ hlon)

end Orthomosaic.BucketGrid
