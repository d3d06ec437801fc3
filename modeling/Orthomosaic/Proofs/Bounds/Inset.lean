import Orthomosaic.Proofs.Bounds.Nearest

/-!
# Rectangles pulled inward

`Bounds.shrunk` moves the edges inward by a margin, and an extent below twice the margin collapses onto
its centre line. What is left of a rectangle are its points that keep the margin, or half the extent if
that is less, from every edge (`Bounds.holds_shrunk_iff`); around a ring, the edges to keep from are the two
sides of the seam.

The centre stays, and it does not matter in how many steps a rectangle is pulled in: margins add up, on each
axis for itself, also when it collapses in one of the steps (`Bounds.shrunk_erodes`).
-/

namespace Orthomosaic.Bounds

open Scalar

variable {b : Bounds ℚ} {lon lat m n : ℚ}

/-! ## What is left of an extent -/

/-- An extent loses the margin on both sides, until nothing is left. -/
theorem sub_two_mul_min_half (m extent : ℚ) :
    extent - 2 * min m (extent / 2) = max 0 (extent - 2 * m) := by
  rcases le_total m (extent / 2) with h | h
  · rw [min_eq_left h, max_eq_right (by linarith)]
  · rw [min_eq_right h, max_eq_left (by linarith)]
    ring

/-- What an extent loses on a side in two steps is what it loses in one, by the sum of the margins. -/
theorem min_half_add_min_half (hn : 0 ≤ n) (m extent : ℚ) :
    min m (extent / 2) + min n ((extent - 2 * min m (extent / 2)) / 2)
      = min (m + n) (extent / 2) := by
  rcases le_total m (extent / 2) with h | h
  · have hleft : (extent - 2 * m) / 2 = extent / 2 - m := by ring
    rw [min_eq_left h, hleft, ← min_add_add_left, add_sub_cancel]
  · -- nothing is left for the second step
    have hleft : (extent - 2 * (extent / 2)) / 2 = 0 := by ring
    rw [min_eq_right h, hleft, min_eq_right hn, add_zero, min_eq_right (by linarith)]

/-! ## The points that are left -/

/-- The eastern edge in the normal spelling is the meridian at which the span ends. -/
theorem sameMeridian_east (b : Bounds ℚ) : SameMeridian b.east (b.west + b.span) := by
  have heast : b.east = if 180 < b.west + b.span then b.west + b.span - 360 else b.west + b.span := rfl
  rw [heast]
  split
  · exact ⟨1, by push_cast; ring⟩
  · exact .refl _

/-- A longitude is `x` degrees inside of both edges when it is one of the rectangle and that far from
either. -/
theorem exists_east_inside_iff {x : ℚ} (hb : b.WellFormed) (h0 : 0 ≤ x) :
    (∃ t, x ≤ t ∧ t ≤ b.span - x ∧ SameMeridian (b.west + t) lon)
      ↔ (∃ t, 0 ≤ t ∧ t ≤ b.span ∧ SameMeridian (b.west + t) lon)
        ∧ x ≤ meridianDistance b.west lon ∧ x ≤ meridianDistance b.east lon := by
  have hturn := hb.span_le_turn
  have heast : ∀ {t : ℚ}, SameMeridian (b.west + t) lon →
      SameMeridian (b.east + (t - b.span)) lon := by
    intro t ht
    have hmove := (sameMeridian_east b).add_right (t - b.span)
    rw [add_assoc, add_sub_cancel] at hmove
    exact hmove.trans ht
  have hback : ∀ {t : ℚ}, t ≤ b.span → |t - b.span| = b.span - t := by
    intro t h
    rw [abs_of_nonpos (sub_nonpos.2 h), neg_sub]
  constructor
  · rintro ⟨t, ht0, ht1, ht⟩
    have hpos : 0 ≤ t := h0.trans ht0
    have hspan : t ≤ b.span := by linarith
    refine ⟨⟨t, hpos, hspan, ht⟩, le_meridianDistance ht ?_ ?_, le_meridianDistance (heast ht) ?_ ?_⟩
    · rwa [abs_of_nonneg hpos]
    · rw [abs_of_nonneg hpos]
      linarith
    · rw [hback hspan]
      linarith
    · rw [hback hspan]
      linarith
  · rintro ⟨⟨t, hpos, hspan, ht⟩, hfar, hfar'⟩
    have hle := hfar.trans (meridianDistance_le_abs ht)
    have hle' := hfar'.trans (meridianDistance_le_abs (heast ht))
    rw [abs_of_nonneg hpos] at hle
    rw [hback hspan] at hle'
    exact ⟨t, hle, by linarith, ht⟩

/-- The points that are left of a rectangle are those that keep the margin from every edge, or half the
extent if that is less. -/
theorem holds_shrunk_iff (hb : b.WellFormed) (hm : 0 ≤ m) :
    (b.shrunk m).Holds lon lat ↔ b.Holds lon lat
      ∧ (min m (b.width / 2) ≤ meridianDistance b.west lon
        ∧ min m (b.width / 2) ≤ meridianDistance b.east lon)
      ∧ min m (b.height / 2) ≤ lat - b.south ∧ min m (b.height / 2) ≤ b.north - lat := by
  have hlon : 0 ≤ min m (b.span / 2) := le_min hm (by linarith [hb.zero_le_span])
  have hlat : 0 ≤ min m ((b.north - b.south) / 2) := le_min hm (by linarith [hb.south_le_north])
  have hsouth : (b.shrunk m).south = b.south + min m ((b.north - b.south) / 2) := by rw [shrunk_eq hb]
  have hnorth : (b.shrunk m).north = b.north - min m ((b.north - b.south) / 2) := by rw [shrunk_eq hb]
  rw [holds_iff, holds_iff, exists_east_shrunk_iff hb, exists_east_inside_iff hb hlon, hsouth, hnorth,
    hb.width_eq, hb.height_eq]
  constructor
  · rintro ⟨⟨hin, hfar⟩, hs, hn⟩
    exact ⟨⟨hin, by linarith, by linarith⟩, hfar, by linarith, by linarith⟩
  · rintro ⟨⟨hin, -⟩, hfar, hs, hn⟩
    exact ⟨⟨hin, hfar⟩, by linarith, by linarith⟩

/-! ## Two steps -/

/-- Moving the edges inward keeps the centre. -/
theorem center_shrunk (hb : b.WellFormed) (m : ℚ) : (b.shrunk m).center = b.center := by
  have hcenter : ∀ r : Bounds ℚ,
      r.center = (normalizeLon (r.west + r.span / 2), (r.south + r.north) / 2) := fun _ => rfl
  rw [hcenter, hcenter, shrunk_eq hb]
  refine Prod.ext (normalizeLon_congr ?_) (by ring)
  have hmove := (sameMeridian_normalizeLon (b.west + min m (b.span / 2))).add_right
    ((b.span - 2 * min m (b.span / 2)) / 2)
  convert hmove using 1
  ring

/-- Moving the edges inward twice is moving them inward once, by the sum of the margins. -/
theorem shrunk_shrunk (hb : b.WellFormed) (hm : 0 ≤ m) (hn : 0 ≤ n) :
    (b.shrunk m).shrunk n = b.shrunk (m + n) := by
  have hlon := min_half_add_min_half hn m b.span
  have hlat := min_half_add_min_half hn m (b.north - b.south)
  have hheight : b.north - min m ((b.north - b.south) / 2) - (b.south + min m ((b.north - b.south) / 2))
      = b.north - b.south - 2 * min m ((b.north - b.south) / 2) := by ring
  rw [shrunk_eq (hb.shrunk hm), shrunk_eq hb m, shrunk_eq hb (m + n), ← hlon, ← hlat]
  dsimp only
  rw [hheight]
  refine (Bounds.mk.injEq ..).mpr ⟨normalizeLon_congr ?_, by ring, by ring, by ring⟩
  rw [← add_assoc]
  exact (sameMeridian_normalizeLon _).add_right _

/-- A margin of zero changes nothing. -/
theorem shrunk_zero (hb : b.WellFormed) : b.shrunk 0 = b := by
  obtain ⟨hwest, hwest', hspan, -, hlat⟩ := wellFormed_iff.1 hb
  have hlon : min 0 (b.span / 2) = 0 := min_eq_left (by linarith)
  have hlat' : min 0 ((b.north - b.south) / 2) = 0 := min_eq_left (by linarith)
  rw [shrunk_eq hb, hlon, hlat', add_zero, mul_zero, sub_zero, add_zero, sub_zero,
    normalizeLon_of_mem hwest hwest']

/-- A rectangle that is pulled in is in the stored form, and its points are those of the old one that
keep the margin, or half the extent if that is less, from each of the four edges, around the globe either
way. The width and the height lose the margin on both sides, until nothing is left, and the centre stays.
A margin of zero changes nothing, and pulling in twice is pulling in once, by the sum of the margins. -/
theorem shrunk_erodes (hb : b.WellFormed) (hm : 0 ≤ m) (hn : 0 ≤ n) :
    (b.shrunk m).WellFormed
      ∧ (∀ lon lat, (b.shrunk m).Holds lon lat ↔ b.Holds lon lat
        ∧ (min m (b.width / 2) ≤ meridianDistance b.west lon
          ∧ min m (b.width / 2) ≤ meridianDistance b.east lon)
        ∧ min m (b.height / 2) ≤ lat - b.south ∧ min m (b.height / 2) ≤ b.north - lat)
      ∧ (b.shrunk m).width = max 0 (b.width - 2 * m)
      ∧ (b.shrunk m).height = max 0 (b.height - 2 * m)
      ∧ (b.shrunk m).center = b.center
      ∧ b.shrunk 0 = b
      ∧ (b.shrunk m).shrunk n = b.shrunk (m + n) := by
  have hwf := hb.shrunk hm
  refine ⟨hwf, fun lon lat => holds_shrunk_iff hb hm, ?_, ?_, center_shrunk hb m, shrunk_zero hb,
    shrunk_shrunk hb hm hn⟩
  · rw [hwf.width_eq, hb.width_eq, shrunk_eq hb]
    exact sub_two_mul_min_half m b.span
  · rw [hwf.height_eq, hb.height_eq, shrunk_eq hb, ← sub_two_mul_min_half]
    ring

/-- A rectangle across the antimeridian, pulled in by a margin for which it is too low and then by one for
which what is left is too narrow: it collapses onto a parallel first, and then onto its centre. -/
theorem shrunk_erodes_across_antimeridian :
    (⟨170, 20, 0, 1⟩ : Bounds ℚ).WellFormed ∧ (0 : ℚ) ≤ 3 ∧ (0 : ℚ) ≤ 8
      ∧ (⟨170, 20, 0, 1⟩ : Bounds ℚ).shrunk 3 = ⟨173, 14, 1 / 2, 1 / 2⟩
      ∧ (⟨173, 14, 1 / 2, 1 / 2⟩ : Bounds ℚ).Holds (-173) (1 / 2)
      ∧ 3 ≤ meridianDistance 170 (-173) ∧ 3 ≤ meridianDistance (-170) (-173)
      ∧ (⟨173, 14, 1 / 2, 1 / 2⟩ : Bounds ℚ).center = (-180, 1 / 2)
      ∧ (⟨173, 14, 1 / 2, 1 / 2⟩ : Bounds ℚ).shrunk 8 = ⟨-180, 0, 1 / 2, 1 / 2⟩ := by
  have hb : (⟨170, 20, 0, 1⟩ : Bounds ℚ).WellFormed := by decide +kernel
  have hm : (0 : ℚ) ≤ 3 := by norm_num
  have hn : (0 : ℚ) ≤ 8 := by norm_num
  have hfirst : (⟨170, 20, 0, 1⟩ : Bounds ℚ).shrunk 3 = ⟨173, 14, 1 / 2, 1 / 2⟩ :=
    (Bounds.mk.injEq ..).mpr (by decide +kernel)
  have honce : (⟨170, 20, 0, 1⟩ : Bounds ℚ).shrunk (3 + 8) = ⟨-180, 0, 1 / 2, 1 / 2⟩ :=
    (Bounds.mk.injEq ..).mpr (by decide +kernel)
  have hcenter : (⟨170, 20, 0, 1⟩ : Bounds ℚ).center = (-180, 1 / 2) := by decide +kernel
  have hedges : min (3 : ℚ) ((⟨170, 20, 0, 1⟩ : Bounds ℚ).width / 2) = 3
      ∧ (⟨170, 20, 0, 1⟩ : Bounds ℚ).east = -170 := by decide +kernel
  have hpoint : (⟨173, 14, 1 / 2, 1 / 2⟩ : Bounds ℚ).Holds (-173) (1 / 2) :=
    holds_iff.2 ⟨⟨14, by norm_num, le_refl _, -1, by norm_num⟩, le_refl _, le_refl _⟩
  obtain ⟨-, hleft, -, -, hkeeps, -, htwice⟩ := shrunk_erodes hb hm hn
  rw [hfirst] at hleft hkeeps htwice
  obtain ⟨-, ⟨hwest, heast⟩, -⟩ := (hleft _ _).1 hpoint
  rw [hedges.1] at hwest heast
  rw [hedges.2] at heast
  exact ⟨hb, hm, hn, hfirst, hpoint, hwest, heast, hkeeps.trans hcenter, htwice.trans honce⟩

end Orthomosaic.Bounds
