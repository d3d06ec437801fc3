import Orthomosaic.Proofs.Bounds.Narrowest

/-!
# Rectangles inside rectangles

`Bounds.covers` compares two numbers, the position of another rectangle's western edge and the place where
that rectangle then ends, both seen from its own western edge. Widened by the tolerance on either side, an
arc that leaves a gap holds a longitude in one way only, so the two numbers tell whether it holds the whole
of another arc (`Bounds.withinArc_widened_iff`).

An arc that closes the ring, up to the tolerance, holds every longitude, and what reaches over its seam lies
inside without ending before the span does. `Bounds.covers` refuses that (`Bounds.SeamCuts`), even where the
ring is a union and what it refuses is one of the parts. `Bounds.covers_iff_within` has nothing else in
which the comparison and the points differ.
-/

namespace Orthomosaic.Bounds

open Scalar

/-- Every point of a rectangle is in another one, up to the tolerance on each side. -/
def Within (b a : Bounds ℚ) : Prop :=
  ∀ lon lat, b.Holds lon lat → a.Near tolerance lon lat

/-- A rectangle that closes the ring, up to the tolerance, has its seam where another one goes on. -/
def SeamCuts (a b : Bounds ℚ) : Prop :=
  360 ≤ a.span + 2 * tolerance ∧ a.span + tolerance < a.lonPosition b.west + b.span

variable {a b : Bounds ℚ} {lon : ℚ}

/-! ## What is compared -/

/-- A rectangle covers another when that one, measured from its western edge, starts and ends within the
tolerance of it, and so do the latitudes. -/
theorem covers_iff (ha : a.WellFormed) (hb : b.WellFormed) :
    a.covers b = true ↔
      (-tolerance ≤ a.lonPosition b.west ∧ a.lonPosition b.west + b.span ≤ a.span + tolerance)
        ∧ a.south ≤ b.south + tolerance ∧ b.north ≤ a.north + tolerance := by
  simp [covers, ha.isEmpty_eq_false, hb.isEmpty_eq_false, reachesEastOf_iff ha hb,
    reachesNorthOf_iff ha, and_assoc]

/-! ## An arc with the tolerance on either side -/

/-- The longitudes within the tolerance of a rectangle are those of a wider arc. -/
theorem onArc_widened_iff (ha : a.WellFormed) :
    OnArc (a.west - tolerance) (a.span + 2 * tolerance) lon ↔
      -tolerance ≤ a.lonPosition lon ∧ a.lonPosition lon ≤ a.span + tolerance := by
  rw [← exists_east_iff_lonPosition ha.zero_le_span tolerance_pos.le]
  constructor
  · rintro ⟨t, ht0, ht1, ht⟩
    exact ⟨t - tolerance, by linarith, by linarith, by convert ht using 1; ring⟩
  · rintro ⟨t, ht0, ht1, ht⟩
    exact ⟨t + tolerance, by linarith, by linarith, by convert ht using 1; ring⟩

/-- A rectangle lies within another when its longitudes are on the wider arc and its latitudes within the
tolerance. -/
theorem within_iff (ha : a.WellFormed) (hb : b.WellFormed) :
    b.Within a ↔ ArcCovers (a.west - tolerance) (a.span + 2 * tolerance) b
      ∧ a.south ≤ b.south + tolerance ∧ b.north ≤ a.north + tolerance := by
  have hlon : ∀ lon, OnArc (a.west - tolerance) (a.span + 2 * tolerance) lon ↔
      ∃ t, -tolerance ≤ t ∧ t ≤ a.span + tolerance ∧ SameMeridian (a.west + t) lon := fun lon =>
    (onArc_widened_iff ha).trans (exists_east_iff_lonPosition ha.zero_le_span tolerance_pos.le).symm
  constructor
  · intro h
    have hsouth := h _ _ hb.holds_corner
    have hnorth := h _ _ hb.holds_upperCorner
    refine ⟨fun lon harc => ?_, by linarith [hsouth.le_lat], hnorth.lat_le⟩
    exact (hlon lon).2 (h lon b.south ((onArc_iff_near hb).1 harc)).exists_east
  · rintro ⟨harc, hsouth, hnorth⟩ lon lat hpoint
    obtain ⟨hin, hle, hge⟩ := holds_iff.1 hpoint
    exact ⟨(hlon lon).1 (harc lon hin), by linarith, by linarith⟩

theorem arcCovers_of_ring {start length : ℚ} (h : 360 ≤ length) : ArcCovers start length b :=
  fun lon _ => ⟨eastward start lon, eastward_nonneg start lon, (eastward_lt start lon).le.trans h,
    sameMeridian_eastward start lon⟩

/-- If the wider arc leaves a gap, a rectangle lies in it when it starts and ends in it, measured from the
western edge. -/
theorem withinArc_widened_iff (ha : a.WellFormed) (hb : b.WellFormed)
    (hgap : a.span + 2 * tolerance < 360) :
    b.WithinArc (a.west - tolerance) (a.span + 2 * tolerance) ↔
      -tolerance ≤ a.lonPosition b.west ∧ a.lonPosition b.west + b.span ≤ a.span + tolerance := by
  have hspan := hb.zero_le_span
  constructor
  · rintro ⟨t, ht0, ht1, ht⟩
    have hposition : a.lonPosition b.west = t - tolerance :=
      lonPosition_eq_of ha.zero_le_span ha.span_le_turn (by linarith) (by linarith)
        (by convert ht using 1; ring)
    rw [hposition]
    constructor <;> linarith
  · rintro ⟨h0, h1⟩
    refine ⟨a.lonPosition b.west + tolerance, by linarith, by linarith, ?_⟩
    convert sameMeridian_lonPosition a b.west using 1
    ring

/-! ## Covering and containing -/

/-- A rectangle covers what lies within it, unless its seam cuts that. -/
theorem covers_eq_true_iff (ha : a.WellFormed) (hb : b.WellFormed) :
    a.covers b = true ↔ b.Within a ∧ ¬ a.SeamCuts b := by
  rw [covers_iff ha hb, within_iff ha hb]
  rcases lt_or_ge (a.span + 2 * tolerance) 360 with hgap | hring
  · have hcut : ¬ a.SeamCuts b := fun h => not_lt.2 h.1 hgap
    rw [arcCovers_iff hb hgap, withinArc_widened_iff ha hb hgap]
    simp [hcut]
  · have hcovers : ArcCovers (a.west - tolerance) (a.span + 2 * tolerance) b := arcCovers_of_ring hring
    have hstart : -tolerance ≤ a.lonPosition b.west := by
      have hcorner := hcovers b.west hb.onArc_west
      exact ((onArc_widened_iff ha).1 hcorner).1
    have hcut : a.SeamCuts b ↔ a.span + tolerance < a.lonPosition b.west + b.span :=
      and_iff_right hring
    rw [hcut, not_lt]
    simp only [hcovers, hstart, true_and]
    exact and_comm

theorem within_absorb (ha : a.WellFormed) (hb : b.WellFormed) :
    a.Within (a.absorb b) ∧ b.Within (a.absorb b) :=
  ⟨fun _ _ h => (h.absorb_left (le_refl 0) ha hb).mono tolerance_pos.le,
    fun _ _ h => (h.absorb_right (le_refl 0) ha hb).mono tolerance_pos.le⟩

/-- A seam cuts nothing that lies in an arc with a gap. -/
theorem not_seamCuts_of_arcCovers (ha : a.WellFormed) (hb : b.WellFormed) (hgap : a.span < 360)
    (h : ArcCovers a.west a.span b) : ¬ a.SeamCuts b := by
  have hspan := hb.zero_le_span
  obtain ⟨t, ht0, ht1, ht⟩ := h.withinArc hb hgap
  have hposition : a.lonPosition b.west = t :=
    lonPosition_eq_of ha.zero_le_span hgap.le (by linarith) (by linarith) ht
  rintro ⟨-, hcut⟩
  rw [hposition] at hcut
  linarith [tolerance_pos]

/-- A rectangle covers another exactly when that one lies within it and its seam does not cut it. So what is
covered lies within, and what lies within is covered unless the seam of a ring cuts it. In particular, a
union covers each of its parts unless it is the whole ring and its seam cuts that part. -/
theorem covers_iff_within (ha : a.WellFormed) (hb : b.WellFormed) :
    (a.covers b = true ↔ b.Within a ∧ ¬ a.SeamCuts b)
    ∧ ((a.absorb b).covers a = true ↔ ¬ (a.absorb b).SeamCuts a)
    ∧ ((a.absorb b).covers b = true ↔ ¬ (a.absorb b).SeamCuts b)
    ∧ ((a.absorb b).SeamCuts a ∨ (a.absorb b).SeamCuts b → (a.absorb b).span = 360) := by
  have hunion := ha.absorb hb
  obtain ⟨hin, hin'⟩ := within_absorb ha hb
  refine ⟨covers_eq_true_iff ha hb, ?_, ?_, fun hcut => ?_⟩
  · rw [covers_eq_true_iff hunion ha]
    exact and_iff_right hin
  · rw [covers_eq_true_iff hunion hb]
    exact and_iff_right hin'
  · by_contra hspan
    have hgap : (a.absorb b).span < 360 := lt_of_le_of_ne hunion.span_le_turn hspan
    have hnarrow := narrowestCover_absorb ha hb
    rcases hcut with hcut | hcut
    · exact not_seamCuts_of_arcCovers hunion ha hgap hnarrow.arcCovers_left hcut
    · exact not_seamCuts_of_arcCovers hunion hb hgap hnarrow.arcCovers_right hcut

/-- A rectangle across the antimeridian and one that ends a little beyond its eastern edge, but by less than
the tolerance: that one lies within, and is covered. -/
theorem covers_iff_within_at_antimeridian :
    (⟨170, 20, 0, 1⟩ : Bounds ℚ).WellFormed
      ∧ (⟨-175, 5 + 1 / 2000000000, 0, 1⟩ : Bounds ℚ).WellFormed
      ∧ (⟨170, 20, 0, 1⟩ : Bounds ℚ).covers ⟨-175, 5 + 1 / 2000000000, 0, 1⟩ = true
      ∧ (⟨-175, 5 + 1 / 2000000000, 0, 1⟩ : Bounds ℚ).Within ⟨170, 20, 0, 1⟩ := by
  have ha : (⟨170, 20, 0, 1⟩ : Bounds ℚ).WellFormed := by decide +kernel
  have hb : (⟨-175, 5 + 1 / 2000000000, 0, 1⟩ : Bounds ℚ).WellFormed := by decide +kernel
  have hcovers : (⟨170, 20, 0, 1⟩ : Bounds ℚ).covers ⟨-175, 5 + 1 / 2000000000, 0, 1⟩ = true := by
    decide +kernel
  exact ⟨ha, hb, hcovers, ((covers_iff_within ha hb).1.1 hcovers).1⟩

/-- The ring around the equator does not cover a rectangle across the antimeridian, where its seam is,
although it holds every point of it; nor does the union of the two, which is that ring. -/
theorem not_covers_across_seam :
    (ofEdges (-180) 0 180 1 : Bounds ℚ) = ⟨-180, 360, 0, 1⟩
      ∧ (ofEdges 170 0 (-170) 1 : Bounds ℚ) = ⟨170, 20, 0, 1⟩
      ∧ (⟨-180, 360, 0, 1⟩ : Bounds ℚ).WellFormed ∧ (⟨170, 20, 0, 1⟩ : Bounds ℚ).WellFormed
      ∧ (⟨170, 20, 0, 1⟩ : Bounds ℚ).Within ⟨-180, 360, 0, 1⟩
      ∧ (⟨-180, 360, 0, 1⟩ : Bounds ℚ).covers ⟨170, 20, 0, 1⟩ = false
      ∧ (absorb ⟨170, 20, 0, 1⟩ ⟨-180, 360, 0, 1⟩ : Bounds ℚ) = ⟨-180, 360, 0, 1⟩ := by
  have ha : (⟨-180, 360, 0, 1⟩ : Bounds ℚ).WellFormed := by decide +kernel
  have hb : (⟨170, 20, 0, 1⟩ : Bounds ℚ).WellFormed := by decide +kernel
  have hunion : (absorb ⟨170, 20, 0, 1⟩ ⟨-180, 360, 0, 1⟩ : Bounds ℚ) = ⟨-180, 360, 0, 1⟩ :=
    (Bounds.mk.injEq ..).mpr (by decide +kernel)
  have hwithin := (within_absorb hb ha).1
  rw [hunion] at hwithin
  exact ⟨(Bounds.mk.injEq ..).mpr (by decide +kernel), (Bounds.mk.injEq ..).mpr (by decide +kernel),
    ha, hb, hwithin, by decide +kernel, hunion⟩

end Orthomosaic.Bounds
