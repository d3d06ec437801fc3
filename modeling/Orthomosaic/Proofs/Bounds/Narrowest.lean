import Mathlib.Order.Interval.Set.Basic
import Orthomosaic.Proofs.Bounds.Hull

/-!
# Unions are narrowest

No arc of the circle that covers two arcs is narrower than the narrower of the two candidates that
`Bounds.absorb` compares: seen from its start, one of the two parts comes first, and the candidate that
starts there ends before the arc does (`Bounds.min_spanFrom_le`). A union may be wider by the tolerance,
since up to the tolerance the candidates count as equally wide and the western edges decide
(`Bounds.absorb_narrowest`).

That decision does not depend on the order of the parts unless their western edges are as close as their
widths. Then the first part keeps its edge, so the two orders give rectangles that differ by the
tolerance at most (`Bounds.absorb_comm_of_wellFormed`).
-/

namespace Orthomosaic.Bounds

open Scalar

variable {a b : Bounds ℚ} {start length lon : ℚ}

/-! ## Arcs that cover a rectangle -/

/-- The longitudes of the arc of a length that goes east from a start. -/
def OnArc (start length lon : ℚ) : Prop :=
  ∃ t, 0 ≤ t ∧ t ≤ length ∧ SameMeridian (start + t) lon

/-- An arc that holds all longitudes of a rectangle. -/
def ArcCovers (start length : ℚ) (b : Bounds ℚ) : Prop :=
  ∀ lon, OnArc b.west b.span lon → OnArc start length lon

theorem WellFormed.onArc_west (hb : b.WellFormed) : OnArc b.west b.span b.west :=
  ⟨0, le_refl 0, hb.zero_le_span, by rw [add_zero]; exact .refl _⟩

/-- The longitudes of a rectangle are those that a point of it can have. -/
theorem onArc_iff_near (hb : b.WellFormed) :
    OnArc b.west b.span lon ↔ b.Near 0 lon b.south :=
  ⟨fun h => holds_iff.2 ⟨h, le_refl _, hb.south_le_north⟩, fun h => (holds_iff.1 h).1⟩

/-- A rectangle that lies in an arc is covered by it. -/
theorem WithinArc.arcCovers (h : b.WithinArc start length) : ArcCovers start length b := by
  obtain ⟨s, hs0, hs1, hs⟩ := h
  rintro lon ⟨t, ht0, ht1, ht⟩
  refine ⟨s + t, by linarith, by linarith, ?_⟩
  have hmove := hs.add_right t
  rw [add_assoc] at hmove
  exact hmove.trans ht

/-- An arc that leaves a gap covers no rectangle but those that lie in it: what reaches over its end
meets the gap. -/
theorem ArcCovers.withinArc (h : ArcCovers start length b) (hb : b.WellFormed)
    (hlength : length < 360) : b.WithinArc start length := by
  have hspan := hb.zero_le_span
  obtain ⟨s, hs0, hs1, hs⟩ := h b.west hb.onArc_west
  refine ⟨s, hs0, ?_, hs⟩
  by_contra hover
  -- a longitude of the rectangle between the end of the arc and a whole turn
  obtain ⟨e, he0, he1, he2⟩ : ∃ e, length < e ∧ e < 360 ∧ e ≤ s + b.span :=
    ⟨min ((length + 360) / 2) (s + b.span), lt_min (by linarith) (not_le.1 hover),
      (min_le_left _ _).trans_lt (by linarith), min_le_right _ _⟩
  have hlon : SameMeridian (b.west + (e - s)) (start + e) := by
    have hmove := hs.symm.add_right (e - s)
    rwa [add_assoc, add_sub_cancel] at hmove
  obtain ⟨t, ht0, ht1, ht⟩ := h (start + e) ⟨e - s, by linarith, by linarith, hlon⟩
  have heq := ht.eq_of_lt (by linarith) (by linarith)
  linarith

/-- For an arc that leaves a gap, to cover a rectangle is to have it within. -/
theorem arcCovers_iff (hb : b.WellFormed) (hlength : length < 360) :
    ArcCovers start length b ↔ b.WithinArc start length :=
  ⟨fun h => h.withinArc hb hlength, fun h => h.arcCovers⟩

/-! ## The narrower candidate -/

/-- An arc that holds both parts is no narrower than one of the candidates. -/
theorem min_spanFrom_le (ha : a.WellFormed) (hb : b.WellFormed) (hlength : length < 360)
    (ha' : a.WithinArc start length) (hb' : b.WithinArc start length) :
    min (spanFrom a b) (spanFrom b a) ≤ length := by
  have haend := ha'.endIn_le ha hlength
  have hbend := hb'.endIn_le hb hlength
  have hastart := startIn_nonneg start a
  have hbstart := startIn_nonneg start b
  rcases le_total (a.startIn start) (b.startIn start) with h | h
  · refine (min_le_left _ _).trans ?_
    rw [spanFrom_of_startIn_le hlength haend hbend h]
    linarith [max_le haend hbend]
  · refine (min_le_right _ _).trans ?_
    rw [spanFrom_of_startIn_le hlength hbend haend h]
    linarith [max_le hbend haend]

/-- A union is wider than the narrower candidate by the tolerance at most. -/
theorem span_absorb_le (ha : a.WellFormed) (hb : b.WellFormed) :
    (a.absorb b).span ≤ min (spanFrom a b) (spanFrom b a) + tolerance := by
  have htol := tolerance_pos
  rw [absorb_eq ha.isEmpty_eq_false hb.isEmpty_eq_false, ← min_add_add_right]
  refine le_min ?_ ?_
  · cases hsecond : startsAtSecond a b with
    | false => exact le_add_of_nonneg_right htol.le
    | true =>
      by_contra hwider
      rw [startsAtSecond_of_lt (not_le.1 hwider)] at hsecond
      cases hsecond
  · cases hsecond : startsAtSecond a b with
    | false =>
      by_contra hwider
      rw [startsAtSecond_of_gt (not_le.1 hwider)] at hsecond
      cases hsecond
    | true => exact le_add_of_nonneg_right htol.le

/-! ## Unions are narrowest -/

/-- A rectangle that covers two others, with the least latitudes that do and with an arc that no
covering arc is narrower than by more than the tolerance. -/
structure NarrowestCover (a b c : Bounds ℚ) : Prop where
  arcCovers_left : ArcCovers c.west c.span a
  arcCovers_right : ArcCovers c.west c.span b
  span_le : ∀ start length, ArcCovers start length a → ArcCovers start length b →
    c.span ≤ length + tolerance
  lat_left : Set.Icc a.south a.north ⊆ Set.Icc c.south c.north
  lat_right : Set.Icc b.south b.north ⊆ Set.Icc c.south c.north
  lat_least : ∀ south north, Set.Icc a.south a.north ⊆ Set.Icc south north →
    Set.Icc b.south b.north ⊆ Set.Icc south north → Set.Icc c.south c.north ⊆ Set.Icc south north

/-- The union of two well-formed rectangles covers them most narrowly. -/
theorem narrowestCover_absorb (ha : a.WellFormed) (hb : b.WellFormed) :
    NarrowestCover a b (a.absorb b) := by
  have hunion := ha.absorb hb
  have hspan := span_absorb_le ha hb
  have hsouth : (a.absorb b).south = min a.south b.south := by
    rw [absorb_eq ha.isEmpty_eq_false hb.isEmpty_eq_false]
  have hnorth : (a.absorb b).north = max a.north b.north := by
    rw [absorb_eq ha.isEmpty_eq_false hb.isEmpty_eq_false]
  have harc : ∀ lon lat, (a.absorb b).Near 0 lon lat →
      OnArc (a.absorb b).west (a.absorb b).span lon := by
    rintro lon lat ⟨⟨t, ht0, ht1, ht⟩, -, -⟩
    exact ⟨t, by linarith, by linarith, ht⟩
  refine ⟨fun lon hlon => ?_, fun lon hlon => ?_, fun start length ha' hb' => ?_, ?_, ?_, ?_⟩
  · exact harc lon a.south (((onArc_iff_near ha).1 hlon).absorb_left (le_refl 0) ha hb)
  · exact harc lon b.south (((onArc_iff_near hb).1 hlon).absorb_right (le_refl 0) ha hb)
  · rcases lt_or_ge length 360 with hgap | hring
    · linarith [min_spanFrom_le ha hb hgap ((arcCovers_iff ha hgap).1 ha')
        ((arcCovers_iff hb hgap).1 hb')]
    · linarith [hunion.span_le_turn, tolerance_pos]
  · rw [hsouth, hnorth]
    exact Set.Icc_subset_Icc (min_le_left _ _) (le_max_left _ _)
  · rw [hsouth, hnorth]
    exact Set.Icc_subset_Icc (min_le_right _ _) (le_max_right _ _)
  · intro south north ha' hb'
    obtain ⟨has, han⟩ := (Set.Icc_subset_Icc_iff ha.south_le_north).1 ha'
    obtain ⟨hbs, hbn⟩ := (Set.Icc_subset_Icc_iff hb.south_le_north).1 hb'
    rw [hsouth, hnorth]
    exact Set.Icc_subset_Icc (le_min has hbs) (max_le han hbn)

/-- A union of well-formed rectangles, and a well-formed rectangle grown to include a point, takes the
narrowest arc that covers both parts, up to the tolerance, and the least latitudes. -/
theorem absorb_narrowest (ha : a.WellFormed) :
    (∀ b : Bounds ℚ, b.WellFormed → NarrowestCover a b (a.absorb b))
      ∧ ∀ lon lat, NarrowestCover a (point lon lat) (a.expand lon lat) :=
  ⟨fun _ hb => narrowestCover_absorb ha hb,
    fun lon lat => narrowestCover_absorb ha (wellFormed_point lon lat)⟩

/-- Across the antimeridian: the arc from 170 degrees east to 170 degrees west is narrower than the way
around, and no arc that holds 170 to 178 and a point at 170 degrees west is narrower. -/
theorem absorb_narrowest_at_antimeridian :
    (⟨170, 8, 0, 1⟩ : Bounds ℚ).WellFormed
      ∧ (⟨170, 8, 0, 1⟩ : Bounds ℚ).expand (-170) 5 = ⟨170, 20, 0, 5⟩
      ∧ ∀ start length, ArcCovers start length ⟨170, 8, 0, 1⟩ →
        ArcCovers start length (point (-170) 5) → 20 ≤ length + tolerance := by
  have ha : (⟨170, 8, 0, 1⟩ : Bounds ℚ).WellFormed := by decide +kernel
  have hunion : (⟨170, 8, 0, 1⟩ : Bounds ℚ).expand (-170) 5 = ⟨170, 20, 0, 5⟩ :=
    (Bounds.mk.injEq ..).mpr (by decide +kernel)
  have hnarrow := ((absorb_narrowest ha).2 (-170) 5).span_le
  rw [hunion] at hnarrow
  exact ⟨ha, hunion, hnarrow⟩

/-! ## The order of the parts -/

/-- Between arcs that start at different longitudes the choice is the same in either order. -/
theorem prefersSecond_swap {west span west' span' : ℚ} (h : tolerance < |west - west'|) :
    prefersSecond west' span' west span = !prefersSecond west span west' span' := by
  have htol := tolerance_pos
  have heast : decide (west' + tolerance < west) = !decide (west + tolerance < west') := by
    rcases lt_abs.1 h with hfirst | hsecond
    · rw [decide_eq_true (by linarith), decide_eq_false (by linarith), Bool.not_false]
    · rw [decide_eq_false (by linarith), decide_eq_true (by linarith), Bool.not_true]
  unfold prefersSecond
  cases wraps west span <;> cases wraps west' span'
  · exact heast
  · rfl
  · rfl
  · exact heast

/-- The same candidate is taken in either order, unless both the spans and the western edges are within
the tolerance of each other. -/
theorem startsAtSecond_swap
    (h : tolerance < |spanFrom a b - spanFrom b a| ∨ tolerance < |a.west - b.west|) :
    startsAtSecond b a = !startsAtSecond a b := by
  have htol := tolerance_pos
  by_cases hspan : tolerance < |spanFrom a b - spanFrom b a|
  · rcases lt_abs.1 hspan with hwider | hwider
    · rw [startsAtSecond_of_gt (a := a) (by linarith), startsAtSecond_of_lt (a := b) (by linarith)]
      rfl
    · rw [startsAtSecond_of_lt (a := a) (by linarith), startsAtSecond_of_gt (a := b) (by linarith)]
      rfl
  · have htie := not_lt.1 hspan
    unfold startsAtSecond
    dsimp only
    rw [if_pos (by rwa [magnitude_eq_abs, abs_sub_comm]), if_pos (by rwa [magnitude_eq_abs])]
    exact prefersSecond_swap (h.resolve_left hspan)

/-- Unions in the two orders are one rectangle, unless the candidates are within the tolerance of each
other. -/
theorem absorb_comm_of_lt (ha : a.WellFormed) (hb : b.WellFormed)
    (h : tolerance < |spanFrom a b - spanFrom b a| ∨ tolerance < |a.west - b.west|) :
    b.absorb a = a.absorb b := by
  rw [absorb_eq hb.isEmpty_eq_false ha.isEmpty_eq_false,
    absorb_eq ha.isEmpty_eq_false hb.isEmpty_eq_false, startsAtSecond_swap h, min_comm, max_comm]
  cases startsAtSecond a b <;> rfl

/-- A union does not depend on the order of its two parts by more than the tolerance: the latitudes are
the same, and the spans and the western edges are within the tolerance of each other. -/
theorem absorb_comm_of_wellFormed (ha : a.WellFormed) (hb : b.WellFormed) :
    (a.absorb b).south = (b.absorb a).south ∧ (a.absorb b).north = (b.absorb a).north
      ∧ |(a.absorb b).span - (b.absorb a).span| ≤ tolerance
      ∧ |(a.absorb b).west - (b.absorb a).west| ≤ tolerance := by
  have htol := tolerance_pos
  have hself : ∀ x : ℚ, |x - x| ≤ tolerance := fun x => by
    rw [sub_self, abs_zero]
    exact htol.le
  by_cases h : tolerance < |spanFrom a b - spanFrom b a| ∨ tolerance < |a.west - b.west|
  · rw [absorb_comm_of_lt ha hb h]
    exact ⟨rfl, rfl, hself _, hself _⟩
  · rw [not_or, not_lt, not_lt] at h
    obtain ⟨hspan, hwest⟩ := h
    rw [absorb_eq ha.isEmpty_eq_false hb.isEmpty_eq_false,
      absorb_eq hb.isEmpty_eq_false ha.isEmpty_eq_false]
    refine ⟨min_comm _ _, max_comm _ _, ?_⟩
    -- whichever candidates are taken, they are those two
    cases startsAtSecond a b <;> cases startsAtSecond b a
    · exact ⟨hspan, hwest⟩
    · exact ⟨hself _, hself _⟩
    · exact ⟨hself _, hself _⟩
    · exact ⟨by rw [abs_sub_comm]; exact hspan, by rw [abs_sub_comm]; exact hwest⟩

/-- Two rectangles on opposite sides of the globe. The two ways around are equally wide and both cross
the antimeridian, so both orders take the one that starts further east. -/
theorem absorb_comm_of_wellFormed_opposite :
    (⟨-5, 10, 0, 1⟩ : Bounds ℚ).WellFormed ∧ (⟨175, 10, 0, 1⟩ : Bounds ℚ).WellFormed
      ∧ (absorb ⟨-5, 10, 0, 1⟩ ⟨175, 10, 0, 1⟩ : Bounds ℚ) = ⟨175, 190, 0, 1⟩
      ∧ |(absorb ⟨175, 10, 0, 1⟩ ⟨-5, 10, 0, 1⟩ : Bounds ℚ).west - 175| ≤ tolerance := by
  have ha : (⟨-5, 10, 0, 1⟩ : Bounds ℚ).WellFormed := by decide +kernel
  have hb : (⟨175, 10, 0, 1⟩ : Bounds ℚ).WellFormed := by decide +kernel
  have hunion : (absorb ⟨-5, 10, 0, 1⟩ ⟨175, 10, 0, 1⟩ : Bounds ℚ) = ⟨175, 190, 0, 1⟩ :=
    (Bounds.mk.injEq ..).mpr (by decide +kernel)
  have hwest := (absorb_comm_of_wellFormed hb ha).2.2.2
  rw [hunion] at hwest
  exact ⟨ha, hb, hunion, hwest⟩

end Orthomosaic.Bounds
