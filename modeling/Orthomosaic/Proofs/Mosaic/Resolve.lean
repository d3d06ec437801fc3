import Mathlib.Logic.Function.Iterate
import Mathlib.Tactic.Common
import Orthomosaic.Mosaic.Grid

/-!
# What a resolved grid is

`BucketGrid.resolve` runs two loops with a limited number of rounds. Here each of them is read as a
run without a limit: `eastOf` and `northOf` list the cells that any number of rounds adds, `cover` is
what is covered then, and a loop that ends well has stopped at the first round that reaches the
target. `BucketGrid.Resolved` collects what this says about a grid; it is all that later proofs use
of the loops. The grid it holds of is the one that `resolve` returns (`Resolved.resolve_eq`).
-/

namespace Orthomosaic.BucketGrid

variable {α : Type} [Scalar α]

/-- A rectangle grown by those of some cells, one after the other. -/
def cover (covered : Bounds α) (cells : List Bucket) : Bounds α :=
  cells.foldl (fun b cell => b.absorb cell.bounds) covered

variable (α) in
/-- The cells that some steps east of a bucket lead to. -/
def eastOf (last : Bucket) : Nat → List Bucket
  | 0 => []
  | k + 1 => last.sibling α 1 0 :: eastOf (last.sibling α 1 0) k

variable (α) in
/-- The bucket that some steps north of another lead to. -/
def startNorth (start : Bucket) (k : Nat) : Bucket :=
  (fun b : Bucket => b.sibling α 0 1)^[k] start

variable (α) in
/-- The cells of the rows that some steps north of a bucket lead to. -/
def northOf (columns : Nat) (start : Bucket) : Nat → List Bucket
  | 0 => []
  | k + 1 => rowCells α columns (start.sibling α 0 1) ++ northOf columns (start.sibling α 0 1) k

/-! ## Covering -/

@[simp] theorem cover_nil (covered : Bounds α) : cover covered [] = covered :=
  rfl

@[simp] theorem cover_cons (covered : Bounds α) (cell : Bucket) (cells : List Bucket) :
    cover covered (cell :: cells) = cover (covered.absorb cell.bounds) cells :=
  rfl

theorem cover_append (covered : Bounds α) (first second : List Bucket) :
    cover covered (first ++ second) = cover (cover covered first) second :=
  List.foldl_append

/-! ## Lengths -/

@[simp] theorem length_eastOf (last : Bucket) (k : Nat) : (eastOf α last k).length = k := by
  induction k generalizing last with
  | zero => rfl
  | succ k ih => rw [eastOf, List.length_cons, ih]

@[simp] theorem length_rowCells (columns : Nat) (first : Bucket) :
    (rowCells α columns first).length = columns := by
  rw [rowCells, List.length_map, List.length_range]

/-- Each step north adds a row. -/
@[simp] theorem length_northOf (columns : Nat) (start : Bucket) (k : Nat) :
    (northOf α columns start k).length = k * columns := by
  induction k generalizing start with
  | zero => rw [northOf, List.length_nil, Nat.zero_mul]
  | succ k ih => rw [northOf, List.length_append, length_rowCells, ih, Nat.succ_mul, Nat.add_comm]

/-! ## The two loops -/

variable {target covered covered' : Bounds α} {cells : List Bucket}

/-- What the loop eastward has done when it ends well. -/
theorem growEast_eq_ok {room : Nat} {last : Bucket}
    (h : growEast target room covered last = .ok (cells, covered')) :
    ∃ k ≤ room, cells = eastOf α last k ∧ covered' = cover covered (eastOf α last k)
      ∧ covered'.reachesEastOf target = true
      ∧ ∀ j < k, (cover covered (eastOf α last j)).reachesEastOf target = false := by
  induction room generalizing covered last cells with
  | zero =>
    rw [growEast] at h
    split at h
    · next hreach =>
      cases h
      exact ⟨0, Nat.le_refl 0, rfl, rfl, hreach, fun j hj => absurd hj (Nat.not_lt_zero j)⟩
    · cases h
  | succ room ih =>
    rw [growEast] at h
    split at h
    · next hreach =>
      cases h
      exact ⟨0, Nat.zero_le _, rfl, rfl, hreach, fun j hj => absurd hj (Nat.not_lt_zero j)⟩
    · next hreach =>
      dsimp only at h
      split at h
      · next rest covered₁ hrest =>
        cases h
        obtain ⟨k, hk, hcells, hcovered, hend, hbefore⟩ := ih hrest
        refine ⟨k + 1, Nat.succ_le_succ hk, by rw [hcells]; rfl, hcovered, hend, ?_⟩
        intro j hj
        cases j with
        | zero => exact Bool.eq_false_iff.2 hreach
        | succ j => exact hbefore j (Nat.lt_of_succ_lt_succ hj)
      · cases h

/-- What the loop northward has done when it ends well. -/
theorem growNorth_eq_ok {origin start : Bucket} {columns room rows : Nat}
    (h : growNorth target origin columns room covered start = .ok (cells, rows, covered')) :
    rows ≤ room ∧ cells = northOf α columns start rows
      ∧ covered' = cover covered (northOf α columns start rows)
      ∧ covered'.reachesNorthOf target = true
      ∧ (∀ j < rows, (cover covered (northOf α columns start j)).reachesNorthOf target = false)
      ∧ ∀ j < rows, ¬ Bounds.tolerance
        < Scalar.magnitude (((startNorth α start (j + 1)).width : α) - origin.width) := by
  induction room generalizing covered start cells rows with
  | zero =>
    rw [growNorth] at h
    split at h
    · next hreach =>
      cases h
      exact ⟨Nat.le_refl 0, rfl, rfl, hreach, fun j hj => absurd hj (Nat.not_lt_zero j),
        fun j hj => absurd hj (Nat.not_lt_zero j)⟩
    · cases h
  | succ room ih =>
    rw [growNorth] at h
    split at h
    · next hreach =>
      cases h
      exact ⟨Nat.zero_le _, rfl, rfl, hreach, fun j hj => absurd hj (Nat.not_lt_zero j),
        fun j hj => absurd hj (Nat.not_lt_zero j)⟩
    · next hreach =>
      dsimp only at h
      split at h
      · cases h
      · next hwidth =>
        split at h
        · next rest rows₁ covered₁ hrest =>
          cases h
          obtain ⟨hk, hcells, hcovered, hend, hbefore, hwidths⟩ := ih hrest
          refine ⟨Nat.succ_le_succ hk, by rw [hcells]; rfl, ?_, hend, ?_, ?_⟩
          · rw [hcovered, northOf, cover_append]
            rfl
          · intro j hj
            cases j with
            | zero => exact Bool.eq_false_iff.2 hreach
            | succ j =>
              rw [northOf, cover_append]
              exact hbefore j (Nat.lt_of_succ_lt_succ hj)
          · intro j hj
            cases j with
            | zero => exact hwidth
            | succ j => exact hwidths j (Nat.lt_of_succ_lt_succ hj)
        · cases h

/-- The loop eastward stops at the first round that reaches the target. -/
theorem growEast_of_reaches {room k : Nat} {last : Bucket} (hk : k ≤ room)
    (hreach : (cover covered (eastOf α last k)).reachesEastOf target = true)
    (hbefore : ∀ j < k, (cover covered (eastOf α last j)).reachesEastOf target = false) :
    growEast target room covered last
      = .ok (eastOf α last k, cover covered (eastOf α last k)) := by
  induction k generalizing room covered last with
  | zero => cases room <;> exact if_pos hreach
  | succ k ih =>
    obtain ⟨room, rfl⟩ := Nat.exists_eq_add_of_le' (Nat.one_le_of_lt hk)
    have hgo := hbefore 0 (Nat.succ_pos k)
    rw [eastOf, cover_nil] at hgo
    rw [eastOf, cover_cons] at hreach ⊢
    have hrest := ih (Nat.le_of_succ_le_succ hk) hreach
      fun j hj => hbefore (j + 1) (Nat.succ_lt_succ hj)
    rw [growEast, hgo, if_neg Bool.false_ne_true]
    dsimp only
    rw [hrest]

/-- The loop northward stops at the first round that reaches the target, if the rows until then have
one width. -/
theorem growNorth_of_reaches {origin start : Bucket} {columns room k : Nat} (hk : k ≤ room)
    (hreach : (cover covered (northOf α columns start k)).reachesNorthOf target = true)
    (hbefore : ∀ j < k, (cover covered (northOf α columns start j)).reachesNorthOf target = false)
    (hwidth : ∀ j < k, ¬ Bounds.tolerance
      < Scalar.magnitude (((startNorth α start (j + 1)).width : α) - origin.width)) :
    growNorth target origin columns room covered start
      = .ok (northOf α columns start k, k, cover covered (northOf α columns start k)) := by
  induction k generalizing room covered start with
  | zero => cases room <;> exact if_pos hreach
  | succ k ih =>
    obtain ⟨room, rfl⟩ := Nat.exists_eq_add_of_le' (Nat.one_le_of_lt hk)
    have hgo := hbefore 0 (Nat.succ_pos k)
    rw [northOf, cover_nil] at hgo
    rw [northOf, cover_append] at hreach ⊢
    have hrest := ih (Nat.le_of_succ_le_succ hk) hreach
      (fun j hj => by
        have := hbefore (j + 1) (Nat.succ_lt_succ hj)
        rwa [northOf, cover_append] at this)
      fun j hj => hwidth (j + 1) (Nat.succ_lt_succ hj)
    have hstep : ¬ Bounds.tolerance
        < Scalar.magnitude (((start.sibling α 0 1).width : α) - origin.width) :=
      hwidth 0 (Nat.succ_pos k)
    rw [growNorth, hgo, if_neg Bool.false_ne_true]
    dsimp only
    unfold cover at hrest ⊢
    rw [if_neg hstep, hrest]

/-- The loop eastward gives up for one reason only. -/
theorem growEast_eq_error {room : Nat} {last : Bucket} {e : MosaicError α}
    (h : growEast target room covered last = .error e) :
    e = .tooLarge .columns (maxGridExtent + 1) := by
  induction room generalizing covered last with
  | zero =>
    rw [growEast] at h
    split at h
    · cases h
    · cases h
      rfl
  | succ room ih =>
    rw [growEast] at h
    split at h
    · cases h
    · dsimp only at h
      split at h
      · cases h
      · next hrest =>
        cases h
        exact ih hrest

/-- The loop eastward gives up only when no round has reached the target. -/
theorem not_reaches_of_growEast_eq_error {room : Nat} {last : Bucket} {e : MosaicError α}
    (h : growEast target room covered last = .error e) :
    ∀ k ≤ room, (cover covered (eastOf α last k)).reachesEastOf target = false := by
  intro k
  induction k using Nat.strongRecOn with
  | ind k ih =>
    intro hk
    by_contra hreach
    rw [Bool.not_eq_false] at hreach
    have hok := growEast_of_reaches hk hreach
      fun j hj => ih j hj (Nat.le_trans (Nat.le_of_lt hj) hk)
    rw [hok] at h
    cases h

/-- The loop northward gives up for a change of widths or for the number of rows. -/
theorem growNorth_eq_error {origin start : Bucket} {columns room : Nat} {e : MosaicError α}
    (h : growNorth target origin columns room covered start = .error e) :
    (∃ found lat, e = .widthChange origin.width found lat)
      ∨ e = .tooLarge .rows (maxGridExtent + 1) := by
  induction room generalizing covered start with
  | zero =>
    rw [growNorth] at h
    split at h
    · cases h
    · cases h
      exact .inr rfl
  | succ room ih =>
    rw [growNorth] at h
    split at h
    · cases h
    · dsimp only at h
      split at h
      · cases h
        exact .inl ⟨_, _, rfl⟩
      · split at h
        · cases h
        · next hrest =>
          cases h
          exact ih hrest

/-- The loop northward gives up at the first row of another width, if the rows until then do not
reach the target. -/
theorem growNorth_of_widthChange {origin start : Bucket} {columns room k : Nat} (hk : k < room)
    (hbefore : ∀ j ≤ k, (cover covered (northOf α columns start j)).reachesNorthOf target = false)
    (hwidth : ∀ j < k, ¬ Bounds.tolerance
      < Scalar.magnitude (((startNorth α start (j + 1)).width : α) - origin.width))
    (hchange : Bounds.tolerance
      < Scalar.magnitude (((startNorth α start (k + 1)).width : α) - origin.width)) :
    growNorth target origin columns room covered start
      = .error (.widthChange origin.width (startNorth α start (k + 1)).width
          (startNorth α start (k + 1)).centerLat) := by
  induction k generalizing room covered start with
  | zero =>
    obtain ⟨room, rfl⟩ := Nat.exists_eq_add_of_le' (Nat.one_le_of_lt hk)
    have hgo := hbefore 0 (Nat.le_refl 0)
    rw [northOf, cover_nil] at hgo
    rw [growNorth, hgo, if_neg Bool.false_ne_true]
    exact if_pos hchange
  | succ k ih =>
    obtain ⟨room, rfl⟩ := Nat.exists_eq_add_of_le' (Nat.one_le_of_lt hk)
    have hgo := hbefore 0 (Nat.zero_le _)
    rw [northOf, cover_nil] at hgo
    have hshort : ∀ j ≤ k, (cover (cover covered (rowCells α columns (start.sibling α 0 1)))
        (northOf α columns (start.sibling α 0 1) j)).reachesNorthOf target = false := by
      intro j hj
      have := hbefore (j + 1) (Nat.succ_le_succ hj)
      rwa [northOf, cover_append] at this
    have hrest := ih (Nat.lt_of_succ_lt_succ hk) hshort
      (fun j hj => hwidth (j + 1) (Nat.succ_lt_succ hj)) hchange
    have hstep : ¬ Bounds.tolerance
        < Scalar.magnitude (((start.sibling α 0 1).width : α) - origin.width) :=
      hwidth 0 (Nat.succ_pos k)
    rw [growNorth, hgo, if_neg Bool.false_ne_true]
    dsimp only
    unfold cover at hrest
    rw [if_neg hstep, hrest]
    rfl

/-! ## Resolved grids -/

/-- The rectangle that a grid is grown to cover. -/
def targetOf (desired : Bounds α) : Bounds α :=
  desired.shrunk edgeInset

/-- The bucket that a grid starts from. -/
def originOf (desired : Bounds α) : Bucket :=
  .containing (targetOf desired).west (targetOf desired).south

/-- What the first row covers up to the bucket some steps east of the origin. -/
def coveredEast (desired : Bounds α) (k : Nat) : Bounds α :=
  cover (originOf desired).bounds (eastOf α (originOf desired) k)

/-- What is known of a grid that was found for a rectangle: it has as many columns and rows as are needed
to reach the eastern and the northern edge, all of one width, and its own rectangle is grown in the
order of its cells. -/
structure Resolved (desired : Bounds α) (grid : BucketGrid α) : Prop where
  isEmpty_eq_false : desired.isEmpty = false
  columns_pos : 0 < grid.columns
  rows_pos : 0 < grid.rows
  columns_le : grid.columns ≤ maxGridExtent
  rows_le : grid.rows ≤ maxGridExtent
  cells_eq : grid.cells = originOf desired :: eastOf α (originOf desired) (grid.columns - 1)
    ++ northOf α grid.columns (originOf desired) (grid.rows - 1)
  bounds_eq : grid.bounds = cover (coveredEast desired (grid.columns - 1))
    (northOf α grid.columns (originOf desired) (grid.rows - 1))
  reaches_east : (coveredEast desired (grid.columns - 1)).reachesEastOf (targetOf desired) = true
  not_reaches_east : ∀ k < grid.columns - 1,
    (coveredEast desired k).reachesEastOf (targetOf desired) = false
  reaches_north : grid.bounds.reachesNorthOf (targetOf desired) = true
  not_reaches_north : ∀ k < grid.rows - 1,
    (cover (coveredEast desired (grid.columns - 1))
      (northOf α grid.columns (originOf desired) k)).reachesNorthOf (targetOf desired) = false
  width_le : ∀ k < grid.rows - 1, ¬ Bounds.tolerance < Scalar.magnitude
    (((startNorth α (originOf desired) (k + 1)).width : α) - (originOf desired).width)

variable {desired : Bounds α} {grid : BucketGrid α}

/-- What a grid is that `resolve` returns. -/
theorem resolved_of_resolve (h : resolve desired = .ok (some grid)) : Resolved desired grid := by
  unfold resolve at h
  split at h
  · cases h
  · next hempty =>
    dsimp only at h
    split at h
    · cases h
    · next east covered₁ heast =>
      split at h
      · cases h
      · next north rows covered₂ hnorth =>
        cases h
        obtain ⟨k, hk, rfl, rfl, hreach, hbefore⟩ := growEast_eq_ok heast
        rw [length_eastOf] at hnorth
        obtain ⟨hrows, rfl, rfl, hend, hshort, hwidth⟩ := growNorth_eq_ok hnorth
        have hmax : 0 < maxGridExtent := by decide
        exact
          { isEmpty_eq_false := Bool.eq_false_iff.2 hempty
            columns_pos := Nat.succ_pos _
            rows_pos := Nat.succ_pos _
            columns_le := by
              change (eastOf α _ k).length + 1 ≤ maxGridExtent
              rw [length_eastOf]
              omega
            rows_le := by
              change rows + 1 ≤ maxGridExtent
              omega
            cells_eq := by
              simp only [length_eastOf, Nat.add_sub_cancel]
              rfl
            bounds_eq := by
              simp only [length_eastOf, Nat.add_sub_cancel]
              rfl
            reaches_east := by
              simp only [length_eastOf, Nat.add_sub_cancel]
              exact hreach
            not_reaches_east := by
              simp only [length_eastOf, Nat.add_sub_cancel]
              exact hbefore
            reaches_north := hend
            not_reaches_north := by
              simp only [length_eastOf, Nat.add_sub_cancel]
              exact hshort
            width_le := by
              simp only [Nat.add_sub_cancel]
              exact hwidth }

/-- The search for a grid, with names for the target and the origin. -/
theorem resolve_of_not_isEmpty (h : desired.isEmpty = false) :
    resolve desired =
      match growEast (targetOf desired) (maxGridExtent - 1) (originOf desired).bounds
        (originOf desired) with
      | .error e => .error e
      | .ok (east, covered) =>
        match growNorth (targetOf desired) (originOf desired) (east.length + 1) (maxGridExtent - 1)
          covered (originOf desired) with
        | .error e => .error e
        | .ok (north, rows, covered) =>
          .ok (some ⟨originOf desired :: east ++ north, east.length + 1, rows + 1, covered⟩) := by
  unfold resolve
  rw [h]
  rfl

/-- What is known of a grid makes `resolve` return it. -/
theorem Resolved.resolve_eq (h : Resolved desired grid) : resolve desired = .ok (some grid) := by
  have hcolumns : grid.columns - 1 + 1 = grid.columns := Nat.sub_add_cancel h.columns_pos
  have hrows : grid.rows - 1 + 1 = grid.rows := Nat.sub_add_cancel h.rows_pos
  have hreach := h.reaches_north
  rw [h.bounds_eq] at hreach
  have heast : growEast (targetOf desired) (maxGridExtent - 1) (originOf desired).bounds
      (originOf desired)
        = .ok (eastOf α (originOf desired) (grid.columns - 1),
          coveredEast desired (grid.columns - 1)) :=
    growEast_of_reaches (Nat.sub_le_sub_right h.columns_le 1) h.reaches_east h.not_reaches_east
  have hnorth := growNorth_of_reaches (Nat.sub_le_sub_right h.rows_le 1) hreach
    h.not_reaches_north h.width_le
  rw [resolve_of_not_isEmpty h.isEmpty_eq_false, heast]
  dsimp only
  rw [length_eastOf, hcolumns, hnorth]
  dsimp only
  rw [hrows, ← h.cells_eq, ← h.bounds_eq]

/-- A grid has as many cells as its rows and columns say. -/
theorem Resolved.length_cells (h : Resolved desired grid) :
    grid.cells.length = grid.rows * grid.columns := by
  have hc := h.columns_pos
  obtain ⟨r, hr⟩ := Nat.exists_eq_add_of_le' h.rows_pos
  rw [h.cells_eq, List.cons_append, List.length_cons, List.length_append, length_eastOf,
    length_northOf, hr, Nat.add_sub_cancel, Nat.succ_mul]
  omega

/-- Whether a grid is found and passes a test. -/
def resolvesWith (desired : Bounds α) (test : BucketGrid α → Bool) : Bool :=
  match resolve desired with
  | .ok (some grid) => test grid
  | _ => false

/-- A grid that is found by running the search. -/
theorem exists_of_resolvesWith {test : BucketGrid α → Bool}
    (h : resolvesWith desired test = true) :
    ∃ grid, resolve desired = .ok (some grid) ∧ test grid = true := by
  unfold resolvesWith at h
  split at h
  · next grid hgrid => exact ⟨grid, hgrid, h⟩
  · cases h

end Orthomosaic.BucketGrid
