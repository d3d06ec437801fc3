import Orthomosaic.Proofs.Bounds.Near

/-!
# The nearest point of a rectangle

The distance of two meridians is the shorter of the two ways from one to the other. Outside of a
rectangle `e` degrees east of its western edge, the way back to the eastern edge is `e - span` and the way
on to the western one is `360 - e`; whatever point of the rectangle is meant, the way there is no shorter
than both (`Bounds.min_le_abs`). `lonPosition` compares these two, so `clamp?` moves a point to
the nearest one, and leaves a point that is inside where it is (`Bounds.clamp_nearest`).
-/

namespace Orthomosaic

open Scalar

/-! ## The distance of two meridians -/

/-- How far two meridians are apart: the shorter of the two ways around. -/
def meridianDistance (a b : ℚ) : ℚ :=
  min (eastward a b) (eastward b a)

variable {a b d : ℚ}

theorem meridianDistance_nonneg (a b : ℚ) : 0 ≤ meridianDistance a b :=
  le_min (eastward_nonneg a b) (eastward_nonneg b a)

/-- No way from one meridian to the other is shorter than their distance. -/
theorem meridianDistance_le_abs (h : SameMeridian (a + d) b) : meridianDistance a b ≤ |d| := by
  rcases le_total 0 d with hd | hd
  · rw [abs_of_nonneg hd]
    exact (min_le_left _ _).trans (eastward_le_of h hd)
  · have hback : SameMeridian (b + -d) a := by
      simpa using h.symm.add_right (-d)
    rw [abs_of_nonpos hd]
    exact (min_le_right _ _).trans (eastward_le_of hback (neg_nonneg.2 hd))

/-- Some way from one meridian to the other is as short as their distance. -/
theorem exists_abs_eq_meridianDistance (a b : ℚ) :
    ∃ d, SameMeridian (a + d) b ∧ |d| = meridianDistance a b := by
  rcases le_total (eastward a b) (eastward b a) with h | h
  · refine ⟨eastward a b, sameMeridian_eastward a b, ?_⟩
    rw [meridianDistance, min_eq_left h, abs_of_nonneg (eastward_nonneg a b)]
  · refine ⟨-eastward b a, ?_, ?_⟩
    · simpa using (sameMeridian_eastward b a).symm.add_right (-eastward b a)
    · rw [meridianDistance, min_eq_right h, abs_neg, abs_of_nonneg (eastward_nonneg b a)]

/-- Meridians with a way between them that is as long as `x`, and leaves as much of the turn, are no nearer
to each other. -/
theorem le_meridianDistance {x : ℚ} (h : SameMeridian (a + d) b) (h0 : x ≤ |d|) (h1 : |d| ≤ 360 - x) :
    x ≤ meridianDistance a b := by
  obtain ⟨d', hd', hdist⟩ := exists_abs_eq_meridianDistance a b
  obtain ⟨k, hk⟩ := h.trans hd'.symm
  have hlow := neg_abs_le d
  have hhigh := le_abs_self d
  rw [← hdist]
  -- every other way takes at least one more turn, on either side
  rcases lt_trichotomy k 0 with hneg | rfl | hpos
  · have hturns : (k : ℚ) ≤ -1 := by exact_mod_cast Int.le_sub_one_of_lt hneg
    exact le_trans (by linarith) (neg_le_abs d')
  · have hsame : d' = d := by simpa using hk
    rwa [hsame]
  · have hturns : (1 : ℚ) ≤ k := by exact_mod_cast hpos
    exact le_trans (by linarith) (le_abs_self d')

theorem meridianDistance_eq_zero (h : SameMeridian a b) : meridianDistance a b = 0 := by
  refine le_antisymm ?_ (meridianDistance_nonneg a b)
  have hzero := meridianDistance_le_abs (d := 0) (by simpa using h)
  simpa using hzero

/-- No number between two bounds is nearer than the one a number is moved to. -/
theorem abs_between_sub_le {low high x y : ℚ} (hlow : low ≤ y) (hhigh : y ≤ high) :
    |between low high x - x| ≤ |y - x| := by
  rw [between_eq_max_min (hlow.trans hhigh)]
  rcases lt_or_ge x low with hx | hx
  · rw [min_eq_right (by linarith), max_eq_left hx.le, abs_of_pos (by linarith)]
    exact (sub_le_sub_right hlow x).trans (le_abs_self _)
  rcases lt_or_ge high x with hx' | hx'
  · rw [min_eq_left hx'.le, max_eq_right (hlow.trans hhigh), abs_of_neg (by linarith)]
    exact (neg_le_neg (sub_le_sub_right hhigh x)).trans (neg_le_abs _)
  · rw [min_eq_right hx', max_eq_right hx, sub_self, abs_zero]
    exact abs_nonneg _

namespace Bounds

variable {b : Bounds ℚ} {lon lon' lat : ℚ}

/-! ## The nearest longitude -/

/-- A longitude inside comes back in its normal spelling. -/
theorem clampLon_of_inside (h : eastward b.west lon ≤ b.span) : b.clampLon lon = normalizeLon lon := by
  have hd0 := eastward_nonneg b.west lon
  unfold clampLon
  rw [lonPosition_of_le h]
  exact (if_neg (not_lt.2 hd0)).trans (if_neg (not_lt.2 h))

/-- Outside and nearer to the western edge, that edge is taken. -/
theorem clampLon_of_near_west (h : b.span < eastward b.west lon)
    (hnear : 360 - eastward b.west lon < eastward b.west lon - b.span) : b.clampLon lon = b.west := by
  have hd1 := eastward_lt b.west lon
  have hposition : b.lonPosition lon = eastward b.west lon - 360 := if_pos ⟨h, hnear⟩
  unfold clampLon
  rw [hposition]
  exact if_pos (sub_neg.2 hd1)

/-- Outside and no nearer to the western edge, the eastern edge is taken. -/
theorem clampLon_of_near_east (h : b.span < eastward b.west lon)
    (hnear : eastward b.west lon - b.span ≤ 360 - eastward b.west lon) :
    b.clampLon lon = normalizeLon b.eastUnwrapped := by
  have hd0 := eastward_nonneg b.west lon
  have hposition : b.lonPosition lon = eastward b.west lon := if_neg fun hwest => not_lt.2 hnear hwest.2
  unfold clampLon
  rw [hposition]
  exact (if_neg (not_lt.2 hd0)).trans (if_pos h)

/-- Every way to a longitude of the rectangle is at least as long as the way back to the eastern edge or
the way on to the western one. -/
theorem min_le_abs (h' : eastward b.west lon' ≤ b.span) (hd : SameMeridian (lon + d) lon') :
    min (eastward b.west lon - b.span) (360 - eastward b.west lon) ≤ |d| := by
  have ht0 := eastward_nonneg b.west lon'
  obtain ⟨k, hk⟩ := sameMeridian_eastward b.west lon
  obtain ⟨l, hl⟩ := sameMeridian_eastward b.west lon'
  obtain ⟨m, hm⟩ := hd
  have hway : d = eastward b.west lon' - eastward b.west lon + 360 * ((l - k - m : ℤ) : ℚ) := by
    push_cast
    linarith
  -- without a whole turn eastward the way passes the eastern edge, with one it passes the western edge
  rcases le_or_gt (l - k - m) 0 with hback | hon
  · have hturns : ((l - k - m : ℤ) : ℚ) ≤ 0 := by exact_mod_cast hback
    refine (min_le_left _ _).trans (le_trans ?_ (neg_le_abs d))
    linarith
  · have hturns : (1 : ℚ) ≤ ((l - k - m : ℤ) : ℚ) := by exact_mod_cast hon
    refine (min_le_right _ _).trans (le_trans ?_ (le_abs_self d))
    linarith

/-- No longitude of a rectangle is nearer than the one a longitude is moved to. -/
theorem meridianDistance_clampLon_le (h' : eastward b.west lon' ≤ b.span) :
    meridianDistance lon (b.clampLon lon) ≤ meridianDistance lon lon' := by
  obtain ⟨d, hd, habs⟩ := exists_abs_eq_meridianDistance lon lon'
  have hlon := sameMeridian_eastward b.west lon
  rcases le_or_gt (eastward b.west lon) b.span with hin | hout
  · rw [clampLon_of_inside hin, meridianDistance_eq_zero (sameMeridian_normalizeLon lon).symm]
    exact meridianDistance_nonneg lon lon'
  have hfar := min_le_abs h' hd
  rw [habs] at hfar
  rcases lt_or_ge (360 - eastward b.west lon) (eastward b.west lon - b.span) with hwest | heast
  · have hway : SameMeridian (lon + (360 - eastward b.west lon)) b.west := by
      obtain ⟨k, hk⟩ := hlon
      exact ⟨-k - 1, by push_cast; linarith⟩
    rw [clampLon_of_near_west hout hwest]
    rw [min_eq_right hwest.le] at hfar
    refine (meridianDistance_le_abs hway).trans ?_
    rwa [abs_of_pos (by linarith [eastward_lt b.west lon])]
  · have hway : SameMeridian (lon + -(eastward b.west lon - b.span)) (normalizeLon b.eastUnwrapped) := by
      refine SameMeridian.trans ?_ (sameMeridian_normalizeLon b.eastUnwrapped).symm
      obtain ⟨k, hk⟩ := hlon
      exact ⟨-k, by unfold eastUnwrapped; push_cast; linarith⟩
    rw [clampLon_of_near_east hout heast]
    rw [min_eq_left heast] at hfar
    refine (meridianDistance_le_abs hway).trans ?_
    rwa [abs_neg, abs_of_pos (by linarith)]

/-- A longitude of a rectangle that is pulled in is moved by no more than the edges are. -/
theorem exists_shift_clampLon_shrunk (hb : b.WellFormed) {margin : ℚ} (hm : 0 ≤ margin)
    (h : eastward b.west lon ≤ b.span) :
    ∃ d, |d| ≤ margin ∧ SameMeridian (lon + d) ((b.shrunk margin).clampLon lon) := by
  have hspan := hb.zero_le_span
  have hin0 : 0 ≤ min margin (b.span / 2) := le_min hm (by linarith)
  have hin1 := min_le_left margin (b.span / 2)
  have hin2 := min_le_right margin (b.span / 2)
  have ht0 := eastward_nonneg b.west lon
  -- a longitude that is left, no farther away than the edges have moved
  obtain ⟨t, htlow, hthigh, habs⟩ : ∃ t, min margin (b.span / 2) ≤ t
      ∧ t ≤ b.span - min margin (b.span / 2)
      ∧ |t - eastward b.west lon| ≤ min margin (b.span / 2) := by
    generalize min margin (b.span / 2) = inset at hin0 hin1 hin2
    rcases lt_or_ge (eastward b.west lon) inset with hlow | hlow
    · exact ⟨inset, le_refl _, by linarith, abs_le.2 ⟨by linarith, by linarith⟩⟩
    rcases lt_or_ge (b.span - inset) (eastward b.west lon) with hhigh | hhigh
    · exact ⟨b.span - inset, by linarith, le_refl _, abs_le.2 ⟨by linarith, by linarith⟩⟩
    · refine ⟨eastward b.west lon, hlow, hhigh, ?_⟩
      rw [sub_self, abs_zero]
      exact hin0
  have hmove : SameMeridian (b.west + t) (lon + (t - eastward b.west lon)) := by
    have hlon := (sameMeridian_eastward b.west lon).add_right (t - eastward b.west lon)
    rwa [add_assoc, add_sub_cancel] at hlon
  obtain ⟨t', ht0', ht1', ht'⟩ := (exists_east_shrunk_iff hb).2 ⟨t, htlow, hthigh, hmove⟩
  have hleft := (eastward_le_of ht' ht0').trans ht1'
  have hnear := (meridianDistance_clampLon_le hleft).trans (meridianDistance_le_abs (.refl _))
  obtain ⟨d, hd, hdist⟩ := exists_abs_eq_meridianDistance lon ((b.shrunk margin).clampLon lon)
  exact ⟨d, hdist.trans_le (hnear.trans (habs.trans hin1)), hd⟩

/-- The longitude that a longitude is moved to is spelled in the normal way. -/
theorem clampLon_mem (hb : b.WellFormed) (lon : ℚ) : -180 ≤ b.clampLon lon ∧ b.clampLon lon < 180 := by
  obtain ⟨hwest, hwest', -⟩ := wellFormed_iff.1 hb
  unfold clampLon
  dsimp only
  split
  · exact ⟨hwest, hwest'⟩
  split <;> exact ⟨le_normalizeLon _, normalizeLon_lt _⟩

/-! ## The nearest point -/

/-- A point inside comes back with its longitude in the normal spelling. -/
theorem Holds.clamp?_eq (hb : b.WellFormed) (h : b.Holds lon lat) :
    b.clamp? lon lat = some (normalizeLon lon, lat) := by
  obtain ⟨-, hsouth, hnorth⟩ := holds_iff.1 h
  rw [(clamp?_spec hb lon lat).1, clampLon_of_inside h.eastward_le_span,
    between_eq_max_min hb.south_le_north, min_eq_right hnorth, max_eq_right hsouth]

/-- Every point is moved to one of the rectangle, with its longitude in `[-180, 180)`, and no point of the
rectangle is nearer in longitude or in latitude. A point inside stays where it is, and so does one that
was moved before. -/
theorem clamp_nearest (hb : b.WellFormed) (lon lat : ℚ) :
    ∃ x y, b.clamp? lon lat = some (x, y) ∧ b.Holds x y ∧ (-180 ≤ x ∧ x < 180)
      ∧ (∀ lon' lat', b.Holds lon' lat' →
        meridianDistance lon x ≤ meridianDistance lon lon' ∧ |y - lat| ≤ |lat' - lat|)
      ∧ (b.Holds lon lat → x = normalizeLon lon ∧ y = lat)
      ∧ b.clamp? x y = some (x, y) := by
  obtain ⟨hmoved, hholds⟩ := clamp?_spec hb lon lat
  have hspelled := clampLon_mem hb lon
  refine ⟨_, _, hmoved, hholds, hspelled, fun lon' lat' h => ⟨?_, ?_⟩, fun h => ?_, ?_⟩
  · exact meridianDistance_clampLon_le h.eastward_le_span
  · exact abs_between_sub_le (by simpa using h.le_lat) (by simpa using h.lat_le)
  · have hsame := hmoved.symm.trans (h.clamp?_eq hb)
    simpa using hsame
  · rw [hholds.clamp?_eq hb, normalizeLon_of_mem hspelled.1 hspelled.2]

/-- A rectangle across the antimeridian and a point on the opposite side of the globe, as far from one
edge as from the other: the eastern one is taken, no point is nearer, and it stays there. -/
theorem clamp_nearest_opposite :
    (⟨170, 20, 0, 1⟩ : Bounds ℚ).WellFormed
      ∧ (⟨170, 20, 0, 1⟩ : Bounds ℚ).clamp? 360 5 = some (-170, 1)
      ∧ meridianDistance 360 (-170) ≤ meridianDistance 360 170
      ∧ (⟨170, 20, 0, 1⟩ : Bounds ℚ).clamp? (-170) 1 = some (-170, 1) := by
  have hb : (⟨170, 20, 0, 1⟩ : Bounds ℚ).WellFormed := by decide +kernel
  have hmoved : (⟨170, 20, 0, 1⟩ : Bounds ℚ).clamp? 360 5 = some (-170, 1) := by decide +kernel
  obtain ⟨x, y, hxy, -, -, hnearest, -, hstays⟩ := clamp_nearest hb 360 5
  obtain ⟨rfl, rfl⟩ : -170 = x ∧ 1 = y := by simpa using hmoved.symm.trans hxy
  exact ⟨hb, hmoved, (hnearest 170 0 hb.holds_corner).1, hstays⟩

end Bounds

end Orthomosaic
