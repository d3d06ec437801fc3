import Orthomosaic.Bounds.Union
import Orthomosaic.Proofs.Bounds.Near

/-!
# What a union covers

The two candidate arcs of a union start at the western edge of either rectangle and run as far east
as both need, so each of them covers both rectangles whichever one is taken. `Bounds.Near.absorb_left`
and `Bounds.Near.absorb_right` state this for points at any distance, and `Bounds.WellFormed.absorb`
that a union keeps the stored form.
-/

namespace Orthomosaic.Bounds

open Scalar

variable {a b : Bounds ℚ} {lon lat ε : ℚ}

/-! ## Reading the operations -/

/-- The span of a candidate arc, as a minimum of a maximum. -/
theorem spanFrom_eq (a b : Bounds ℚ) :
    spanFrom a b = min (max a.span (eastward a.west b.west + b.span)) 360 := by
  unfold spanFrom
  rw [least_eq_min, greatest_eq_max]
  rfl

/-- An arc reaches over the antimeridian when it ends beyond 180 and the tolerance. -/
theorem wraps_iff {west span : ℚ} : wraps west span = true ↔ 180 + tolerance < west + span :=
  decide_eq_true_iff

/-- The union of two rectangles of which neither is empty. -/
theorem absorb_eq (ha : a.isEmpty = false) (hb : b.isEmpty = false) :
    a.absorb b =
      { west := if startsAtSecond a b then b.west else a.west
        span := if startsAtSecond a b then spanFrom b a else spanFrom a b
        south := min a.south b.south
        north := max a.north b.north } := by
  unfold absorb
  rw [if_neg (Bool.eq_false_iff.1 hb), if_neg (Bool.eq_false_iff.1 ha), least_eq_min, greatest_eq_max]

theorem absorb_of_isEmpty_left (ha : a.isEmpty = true) (hb : b.isEmpty = false) :
    a.absorb b = b := by
  unfold absorb
  rw [if_neg (Bool.eq_false_iff.1 hb), if_pos ha]

theorem absorb_of_isEmpty_right (hb : b.isEmpty = true) : a.absorb b = a := by
  unfold absorb
  rw [if_pos hb]

theorem isEmpty_empty : (empty : Bounds ℚ).isEmpty = true :=
  isEmpty_iff.2 (by change (-90 : ℚ) < 90; norm_num)

theorem wellFormed_point (lon lat : ℚ) : (point lon lat).WellFormed :=
  wellFormed_iff.2 ⟨le_normalizeLon lon, normalizeLon_lt lon, le_refl 0, by
    change (0 : ℚ) ≤ 360; norm_num, le_refl lat⟩

theorem holds_point (lon lat : ℚ) : (point lon lat).Holds lon lat := by
  refine holds_iff.2 ⟨⟨0, le_refl 0, le_refl 0, ?_⟩, le_refl lat, le_refl lat⟩
  rw [add_zero]
  exact sameMeridian_normalizeLon lon

/-! ## The candidate arcs -/

theorem spanFrom_le (a b : Bounds ℚ) : spanFrom a b ≤ 360 := by
  rw [spanFrom_eq]
  exact min_le_right _ _

/-- The candidate arc that starts at the western edge of a rectangle is no shorter than the
rectangle's own. -/
theorem span_le_spanFrom (ha : a.WellFormed) (b : Bounds ℚ) : a.span ≤ spanFrom a b := by
  rw [spanFrom_eq]
  exact le_min (le_max_left _ _) ha.span_le_turn

/-- A longitude within a distance of one arc is within that distance of the candidate that starts
at another arc's western edge. -/
theorem exists_east_spanFrom (hε : 0 ≤ ε)
    (h : ∃ t, -ε ≤ t ∧ t ≤ b.span + ε ∧ SameMeridian (b.west + t) lon) :
    ∃ t, -ε ≤ t ∧ t ≤ spanFrom a b + ε ∧ SameMeridian (a.west + t) lon := by
  obtain ⟨t, ht0, ht1, ht⟩ := h
  have hd0 := eastward_nonneg a.west b.west
  rcases le_or_gt (eastward a.west b.west + b.span) 360 with hfit | hfull
  · -- no full turn is needed, so the longitude lies behind the way to the other western edge
    have hspan : eastward a.west b.west + b.span ≤ spanFrom a b := by
      rw [spanFrom_eq]
      exact le_min (le_max_right _ _) hfit
    refine ⟨eastward a.west b.west + t, by linarith, by linarith, ?_⟩
    have hmove := (sameMeridian_eastward a.west b.west).add_right t
    rw [add_assoc] at hmove
    exact hmove.trans ht
  · have hspan : spanFrom a b = 360 := by
      rw [spanFrom_eq]
      exact min_eq_right (hfull.le.trans (le_max_right _ _))
    refine ⟨eastward a.west lon, ?_, ?_, sameMeridian_eastward a.west lon⟩
    · linarith [eastward_nonneg a.west lon]
    · linarith [eastward_lt a.west lon]

/-! ## The choice of an arc -/

/-- The narrower arc is kept. -/
theorem startsAtSecond_of_lt (h : spanFrom a b + tolerance < spanFrom b a) :
    startsAtSecond a b = false := by
  have htol := tolerance_pos
  unfold startsAtSecond
  dsimp only
  rw [if_neg]
  · exact decide_eq_false (by linarith)
  · rw [magnitude_eq_abs, abs_of_nonpos (by linarith)]
    linarith

/-- The narrower arc is taken. -/
theorem startsAtSecond_of_gt (h : spanFrom b a + tolerance < spanFrom a b) :
    startsAtSecond a b = true := by
  have htol := tolerance_pos
  unfold startsAtSecond
  dsimp only
  rw [if_neg]
  · exact decide_eq_true (by linarith)
  · rw [magnitude_eq_abs, abs_of_nonneg (by linarith)]
    linarith

/-- Between arcs of one width the western edges decide. -/
theorem startsAtSecond_of_eq (h : spanFrom a b = spanFrom b a) :
    startsAtSecond a b = prefersSecond a.west (spanFrom a b) b.west (spanFrom b a) := by
  unfold startsAtSecond
  dsimp only
  refine if_pos ?_
  rw [magnitude_eq_abs, h, sub_self, abs_zero]
  exact tolerance_pos.le

/-- An arc is not given up for itself. -/
theorem prefersSecond_self (west span : ℚ) : prefersSecond west span west span = false := by
  have hself : decide (west + tolerance < west) = false :=
    decide_eq_false (by linarith [tolerance_pos])
  unfold prefersSecond
  cases wraps west span with
  | false => exact hself
  | true => exact hself

/-- The western edge of the union of two rectangles that both need the whole ring. -/
def ringWest (first second : ℚ) : ℚ :=
  if prefersSecond first 360 second 360 then second else first

/-- The edge of a ring is one of those compared. -/
theorem ringWest_eq_or (first second : ℚ) :
    ringWest first second = first ∨ ringWest first second = second := by
  unfold ringWest
  split
  · exact .inr rfl
  · exact .inl rfl

/-- A union that needs the whole ring either way. -/
theorem absorb_of_ring (ha : a.isEmpty = false) (hb : b.isEmpty = false)
    (hab : spanFrom a b = 360) (hba : spanFrom b a = 360) :
    (a.absorb b).span = 360 ∧ (a.absorb b).west = ringWest a.west b.west := by
  have hsecond := startsAtSecond_of_eq (hab.trans hba.symm)
  rw [hab, hba] at hsecond
  rw [absorb_eq ha hb, hab, hba]
  refine ⟨ite_self _, ?_⟩
  unfold ringWest
  rw [← hsecond]

/-- A ring needs no more than a ring, and nothing that holds one needs less. -/
theorem spanFrom_of_ring (ha : a.span = 360) (b : Bounds ℚ) :
    spanFrom a b = 360 ∧ spanFrom b a = 360 := by
  have h := eastward_nonneg b.west a.west
  rw [spanFrom_eq, spanFrom_eq, ha]
  exact ⟨min_eq_right (le_max_left _ _), min_eq_right (le_max_of_le_right (by linarith))⟩

/-- A ring reaches over the antimeridian unless it starts there. -/
theorem wraps_ring_iff (west : ℚ) : wraps west 360 = true ↔ -180 + tolerance < west := by
  rw [wraps_iff]
  constructor <;> intro h <;> linarith

theorem wraps_antimeridian : wraps (-180 : ℚ) 360 = false := by
  rw [← Bool.not_eq_true, wraps_ring_iff]
  linarith [tolerance_pos]

/-- A ring that starts at the antimeridian keeps its edge. -/
theorem ringWest_of_antimeridian {second : ℚ} : ringWest (-180) second = -180 := by
  unfold ringWest prefersSecond
  rw [wraps_antimeridian]
  cases hsecond : wraps second 360 with
  | false =>
    rw [← Bool.not_eq_true, wraps_ring_iff] at hsecond
    have hkeep : decide ((-180 : ℚ) + tolerance < second) = false := decide_eq_false hsecond
    dsimp only
    rw [hkeep]
    rfl
  | true => rfl

/-- A ring gives up its edge for the antimeridian. -/
theorem ringWest_antimeridian {first : ℚ} (h : -180 + tolerance < first) :
    ringWest first (-180) = -180 := by
  unfold ringWest prefersSecond
  rw [wraps_antimeridian, (wraps_ring_iff first).2 h]
  rfl

/-- Away from the antimeridian a ring keeps its edge when the other one is further west. -/
theorem ringWest_of_le {first second : ℚ} (h : -180 + tolerance < second)
    (hle : second ≤ first) : ringWest first second = first := by
  have hkeep : decide (first + tolerance < second) = false :=
    decide_eq_false (by linarith [tolerance_pos])
  unfold ringWest prefersSecond
  rw [(wraps_ring_iff second).2 h, (wraps_ring_iff first).2 (h.trans_le hle)]
  dsimp only
  rw [hkeep]
  rfl

/-- Away from the antimeridian a ring gives up its edge for one further east. -/
theorem ringWest_of_lt {first second : ℚ} (h : -180 + tolerance < first)
    (hlt : first + tolerance < second) : ringWest first second = second := by
  have hsecond : -180 + tolerance < second := by linarith [tolerance_pos]
  have htake : decide (first + tolerance < second) = true := decide_eq_true hlt
  unfold ringWest prefersSecond
  rw [(wraps_ring_iff second).2 hsecond, (wraps_ring_iff first).2 h]
  dsimp only
  rw [htake]
  rfl

/-! ## Unions -/

/-- A union of well-formed rectangles is well-formed. -/
theorem WellFormed.absorb (ha : a.WellFormed) (hb : b.WellFormed) : (a.absorb b).WellFormed := by
  rw [absorb_eq ha.isEmpty_eq_false hb.isEmpty_eq_false]
  obtain ⟨ha1, ha2, ha3, ha4, ha5⟩ := wellFormed_iff.1 ha
  obtain ⟨hb1, hb2, hb3, hb4, hb5⟩ := wellFormed_iff.1 hb
  have hlat : min a.south b.south ≤ max a.north b.north :=
    (min_le_left _ _).trans (ha5.trans (le_max_left _ _))
  cases startsAtSecond a b with
  | false =>
    exact wellFormed_iff.2
      ⟨ha1, ha2, ha3.trans (span_le_spanFrom ha b), spanFrom_le a b, hlat⟩
  | true =>
    exact wellFormed_iff.2
      ⟨hb1, hb2, hb3.trans (span_le_spanFrom hb a), spanFrom_le b a, hlat⟩

/-- A point within a distance of a rectangle is within that distance of every union that the
rectangle is the first part of. -/
theorem Near.absorb_left (hε : 0 ≤ ε) (ha : a.WellFormed) (hb : b.WellFormed)
    (h : a.Near ε lon lat) : (a.absorb b).Near ε lon lat := by
  rw [absorb_eq ha.isEmpty_eq_false hb.isEmpty_eq_false]
  have hs := min_le_left a.south b.south
  have hn := le_max_left a.north b.north
  refine ⟨?_, by linarith [h.le_lat], by linarith [h.lat_le]⟩
  cases startsAtSecond a b with
  | false =>
    obtain ⟨t, ht0, ht1, ht⟩ := h.exists_east
    exact ⟨t, ht0, ht1.trans (add_le_add (span_le_spanFrom ha b) (le_refl ε)), ht⟩
  | true => exact exists_east_spanFrom hε h.exists_east

/-- A point within a distance of a rectangle is within that distance of every union that the
rectangle is the second part of. -/
theorem Near.absorb_right (hε : 0 ≤ ε) (ha : a.WellFormed) (hb : b.WellFormed)
    (h : b.Near ε lon lat) : (a.absorb b).Near ε lon lat := by
  rw [absorb_eq ha.isEmpty_eq_false hb.isEmpty_eq_false]
  have hs := min_le_right a.south b.south
  have hn := le_max_right a.north b.north
  refine ⟨?_, by linarith [h.le_lat], by linarith [h.lat_le]⟩
  cases startsAtSecond a b with
  | false => exact exists_east_spanFrom hε h.exists_east
  | true =>
    obtain ⟨t, ht0, ht1, ht⟩ := h.exists_east
    exact ⟨t, ht0, ht1.trans (add_le_add (span_le_spanFrom hb a) (le_refl ε)), ht⟩

end Orthomosaic.Bounds
