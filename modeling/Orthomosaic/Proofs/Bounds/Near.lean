import Orthomosaic.Bounds.Position
import Orthomosaic.Proofs.Longitude

/-!
# Points near a rectangle

`Bounds.Near b ε lon lat` says that a point is at most `ε` degrees outside a rectangle, in longitude
along the circle and in latitude; `Bounds.Holds` is the case of no distance at all. The relation
speaks of meridians, not of their names, so it does not depend on how the longitude is spelled.

`Bounds.exists_east_iff_lonPosition` ties it to `lonPosition`, on which all questions about points
rest, and `Bounds.contains_iff_near` says that `contains` decides it for the tolerance.
-/

namespace Orthomosaic.Bounds

open Scalar

/-- A point at most `ε` degrees outside a rectangle, in longitude and in latitude. -/
structure Near (b : Bounds ℚ) (ε lon lat : ℚ) : Prop where
  exists_east : ∃ t, -ε ≤ t ∧ t ≤ b.span + ε ∧ SameMeridian (b.west + t) lon
  le_lat : b.south - ε ≤ lat
  lat_le : lat ≤ b.north + ε

/-- A point of a rectangle. -/
abbrev Holds (b : Bounds ℚ) (lon lat : ℚ) : Prop :=
  b.Near 0 lon lat

variable {b : Bounds ℚ} {lon lat ε : ℚ}

/-! ## Reading the operations -/

theorem wellFormed_iff :
    b.WellFormed ↔ -180 ≤ b.west ∧ b.west < 180 ∧ 0 ≤ b.span ∧ b.span ≤ 360 ∧ b.south ≤ b.north :=
  ⟨fun h => ⟨h.le_west, h.west_lt, h.span_nonneg, h.span_le, h.south_le⟩,
    fun ⟨h1, h2, h3, h4, h5⟩ => ⟨h1, h2, h3, h4, h5⟩⟩

instance (b : Bounds ℚ) : Decidable b.WellFormed :=
  decidable_of_iff _ wellFormed_iff.symm

theorem WellFormed.zero_le_span (h : b.WellFormed) : 0 ≤ b.span :=
  h.span_nonneg

theorem WellFormed.span_le_turn (h : b.WellFormed) : b.span ≤ 360 :=
  h.span_le

theorem WellFormed.south_le_north (h : b.WellFormed) : b.south ≤ b.north :=
  h.south_le

/-- A rectangle is empty when its latitudes are the wrong way round. -/
theorem isEmpty_iff : b.isEmpty = true ↔ b.north < b.south :=
  decide_eq_true_iff

theorem WellFormed.isEmpty_eq_false (h : b.WellFormed) : b.isEmpty = false :=
  decide_eq_false (not_lt.2 h.south_le_north)

theorem WellFormed.width_eq (h : b.WellFormed) : b.width = b.span := by
  simp [width, h.isEmpty_eq_false]

theorem WellFormed.height_eq (h : b.WellFormed) : b.height = b.north - b.south := by
  simp [height, h.isEmpty_eq_false]

theorem tolerance_eq : (tolerance : ℚ) = 1 / 1000000000 := by
  unfold tolerance
  norm_num

theorem tolerance_pos : (0 : ℚ) < tolerance := by
  rw [tolerance_eq]
  norm_num

/-- The rectangle around a point, of a width and a height that need no correction. -/
theorem ofCenter_eq {width height : ℚ} (lon lat : ℚ) (hw : 0 ≤ width) (hw' : width ≤ 360)
    (hh : 0 ≤ height) :
    ofCenter lon lat width height
      = ⟨normalizeLon (lon - width / 2), width, lat - height / 2, lat + height / 2⟩ := by
  have hwidth : between (instOfNat 0).ofNat (instOfNat 360).ofNat width = width := by
    have hturn : (0 : ℚ) ≤ 360 := by norm_num
    refine (between_eq_max_min hturn width).trans ?_
    rw [min_eq_right hw', max_eq_right hw]
  have hheight : greatest height (instOfNat 0).ofNat = height := by
    rw [greatest_eq_max]
    exact max_eq_left hh
  unfold ofCenter
  dsimp only
  rw [hwidth, hheight]
  rfl

/-- The two cases of the position of a longitude. -/
theorem lonPosition_eq (b : Bounds ℚ) (lon : ℚ) :
    b.lonPosition lon
      = if b.span < eastward b.west lon
          ∧ 360 - eastward b.west lon < eastward b.west lon - b.span
        then eastward b.west lon - 360 else eastward b.west lon :=
  rfl

/-- A longitude that the span reaches is measured eastward. -/
theorem lonPosition_of_le (h : eastward b.west lon ≤ b.span) :
    b.lonPosition lon = eastward b.west lon := by
  rw [lonPosition_eq, if_neg]
  rintro ⟨h1, -⟩
  exact absurd h1 (not_lt.2 h)

theorem lonPosition_congr {lon' : ℚ} (h : SameMeridian lon lon') :
    b.lonPosition lon = b.lonPosition lon' := by
  rw [lonPosition_eq, lonPosition_eq, eastward_congr h]

/-- The position leads from the western edge to the longitude. -/
theorem sameMeridian_lonPosition (b : Bounds ℚ) (lon : ℚ) :
    SameMeridian (b.west + b.lonPosition lon) lon := by
  obtain ⟨k, hk⟩ := sameMeridian_eastward b.west lon
  rw [lonPosition_eq]
  split
  · exact ⟨k + 1, by push_cast; linarith⟩
  · exact ⟨k, hk⟩

/-- A position is no farther beyond either edge than half of the gap. -/
theorem lonPosition_mem (h0 : 0 ≤ b.span) (hturn : b.span ≤ 360) (lon : ℚ) :
    b.span - 360 ≤ 2 * b.lonPosition lon ∧ 2 * b.lonPosition lon ≤ b.span + 360 := by
  have hd0 := eastward_nonneg b.west lon
  have hd1 := eastward_lt b.west lon
  rw [lonPosition_eq]
  split
  · next hcase => constructor <;> linarith [hcase.2]
  · next hcase =>
    rw [not_and_or, not_lt, not_lt] at hcase
    rcases hcase with hcase | hcase <;> constructor <;> linarith

/-- A way from the western edge that ends before the middle of the gap, on either side, is the position of
the longitude it leads to. -/
theorem lonPosition_eq_of {t : ℚ} (h0 : 0 ≤ b.span) (hturn : b.span ≤ 360) (ht0 : b.span - 360 < 2 * t)
    (ht1 : 2 * t < b.span + 360) (hlon : SameMeridian (b.west + t) lon) : b.lonPosition lon = t := by
  obtain ⟨hlow, hhigh⟩ := lonPosition_mem h0 hturn lon
  have heq := ((sameMeridian_lonPosition b lon).trans hlon.symm).eq_of_lt (by linarith) (by linarith)
  linarith

/-! ## Points within a distance -/

/-- A longitude is within `ε` of the arc of a rectangle exactly when its position is within `ε` of
the span. -/
theorem exists_east_iff_lonPosition (h0 : 0 ≤ b.span) (hε : 0 ≤ ε) :
    (∃ t, -ε ≤ t ∧ t ≤ b.span + ε ∧ SameMeridian (b.west + t) lon)
      ↔ -ε ≤ b.lonPosition lon ∧ b.lonPosition lon ≤ b.span + ε := by
  have hd0 := eastward_nonneg b.west lon
  have hd1 := eastward_lt b.west lon
  obtain ⟨k, hk⟩ := sameMeridian_eastward b.west lon
  rw [lonPosition_eq]
  constructor
  · rintro ⟨t, ht0, ht1, l, hl⟩
    -- the two ways to the meridian differ by whole turns, and the sign of these tells the edge
    -- that is near
    have ht : t = eastward b.west lon + 360 * ((k : ℚ) - l) := by linarith
    rcases lt_or_ge k l with hkl | hkl
    · have hturn : (k : ℚ) - l ≤ -1 := by
        have : k + 1 ≤ l := hkl
        have : (k : ℚ) + 1 ≤ l := by exact_mod_cast this
        linarith
      have hwest : 360 - eastward b.west lon ≤ ε := by linarith
      split
      · constructor <;> linarith
      · next hcase =>
        rw [not_and_or, not_lt, not_lt] at hcase
        rcases hcase with hcase | hcase <;> constructor <;> linarith
    · have hturn : (0 : ℚ) ≤ (k : ℚ) - l := by
        have : (l : ℚ) ≤ k := by exact_mod_cast hkl
        linarith
      have heast : eastward b.west lon ≤ b.span + ε := by linarith
      split
      · next hcase => constructor <;> linarith [hcase.2]
      · constructor <;> linarith
  · intro h
    rw [← lonPosition_eq] at h
    exact ⟨_, h.1, h.2, sameMeridian_lonPosition b lon⟩

/-- The points of a rectangle, without the distance. -/
theorem holds_iff : b.Holds lon lat ↔
    (∃ t, 0 ≤ t ∧ t ≤ b.span ∧ SameMeridian (b.west + t) lon) ∧ b.south ≤ lat ∧ lat ≤ b.north := by
  constructor
  · rintro ⟨hlon, hsouth, hnorth⟩
    rw [neg_zero, add_zero] at hlon
    exact ⟨hlon, by linarith, by linarith⟩
  · rintro ⟨hlon, hsouth, hnorth⟩
    refine ⟨?_, by linarith, by linarith⟩
    rwa [neg_zero, add_zero]

theorem Holds.eastward_le_span (h : b.Holds lon lat) : eastward b.west lon ≤ b.span := by
  obtain ⟨⟨t, ht0, ht1, ht⟩, -⟩ := holds_iff.1 h
  exact (eastward_le_of ht ht0).trans ht1

/-- `contains` decides whether a point is within the tolerance. -/
theorem contains_iff_near (hb : b.WellFormed) :
    b.contains lon lat = true ↔ b.Near tolerance lon lat := by
  have hlon : _ ↔ -tolerance ≤ b.lonPosition lon ∧ b.lonPosition lon ≤ b.span + tolerance :=
    exists_east_iff_lonPosition hb.zero_le_span tolerance_pos.le
  unfold contains
  rw [if_neg (Bool.eq_false_iff.1 hb.isEmpty_eq_false)]
  constructor
  · intro h
    split at h
    · exact absurd h (by decide)
    · next hlat =>
      rw [not_or, not_lt, not_lt] at hlat
      exact ⟨hlon.2 (of_decide_eq_true h), hlat.1, hlat.2⟩
  · intro h
    rw [if_neg (not_or.2 ⟨not_lt.2 h.le_lat, not_lt.2 h.lat_le⟩)]
    exact decide_eq_true (hlon.1 h.exists_east)

theorem Near.mono {ε' : ℚ} (h : b.Near ε lon lat) (hε : ε ≤ ε') : b.Near ε' lon lat := by
  obtain ⟨⟨t, ht0, ht1, ht⟩, hs, hn⟩ := h
  exact ⟨⟨t, by linarith, by linarith, ht⟩, by linarith, by linarith⟩

theorem WellFormed.holds_corner (hb : b.WellFormed) : b.Holds b.west b.south :=
  holds_iff.2 ⟨⟨0, le_refl _, hb.zero_le_span, by rw [add_zero]; exact .refl _⟩, le_refl _,
    hb.south_le_north⟩

theorem WellFormed.holds_upperCorner (hb : b.WellFormed) : b.Holds b.west b.north :=
  holds_iff.2 ⟨(holds_iff.1 hb.holds_corner).1, hb.south_le_north, le_refl _⟩

theorem Holds.contains (hb : b.WellFormed) (h : b.Holds lon lat) : b.contains lon lat = true :=
  (contains_iff_near hb).2 (h.mono tolerance_pos.le)

/-! ## Texture coordinates -/

theorem WellFormed.texCoord_eq (hb : b.WellFormed) (lon lat : ℚ) :
    b.texCoord lon lat = (b.texU lon, b.texV lat) := by
  simp [texCoord, hb.isEmpty_eq_false]

/-- Whether a longitude is the eastern edge of a ring, in the one spelling that counts as such. -/
def AtSeam (b : Bounds ℚ) (lon : ℚ) : Prop :=
  b.lonPosition lon ≤ tolerance ∧ 360 - tolerance ≤ b.span ∧ |lon - b.eastUnwrapped| ≤ tolerance

/-- The two cases of the coordinate across, for a rectangle that is no meridian. -/
theorem texU_cases (h : tolerance < b.span) (lon : ℚ) :
    (b.AtSeam lon ∧ b.texU lon = 1) ∨ (¬ b.AtSeam lon ∧ b.texU lon = b.lonPosition lon / b.span) := by
  have hdef : b.texU lon
      = if b.lonPosition lon ≤ tolerance ∧ 360 - tolerance ≤ b.span
          ∧ magnitude (lon - b.eastUnwrapped) ≤ tolerance then 1
        else b.lonPosition lon / b.span :=
    if_neg (not_le.2 h)
  rw [magnitude_eq_abs] at hdef
  by_cases hseam : b.AtSeam lon
  · exact .inl ⟨hseam, hdef.trans (if_pos hseam)⟩
  · exact .inr ⟨hseam, hdef.trans (if_neg hseam)⟩

/-- The coordinate across of a longitude clearly inside a rectangle is its share of the span. -/
theorem texU_eq {d : ℚ} (h0 : tolerance < d) (hd : d ≤ b.span) (h360 : d < 360)
    (hlon : SameMeridian (b.west + d) lon) : b.texU lon = d / b.span := by
  have htol := tolerance_pos
  have heast : eastward b.west lon = d := eastward_eq_of hlon (by linarith) h360
  have hposition : b.lonPosition lon = d := by
    rw [lonPosition_of_le (by rw [heast]; exact hd), heast]
  rcases texU_cases (h0.trans_le hd) lon with ⟨hseam, -⟩ | ⟨-, hshare⟩
  · exact absurd (hposition ▸ hseam.1) (not_le.2 h0)
  · rw [hshare, hposition]

/-- The coordinate down is the share of the height, if there is one. -/
theorem texV_eq (h : tolerance < b.north - b.south) :
    b.texV lat = (b.north - lat) / (b.north - b.south) :=
  if_neg (not_le.2 h)

/-- A point of a rectangle has its coordinate across within the picture. -/
theorem Holds.texU_mem (h : b.Holds lon lat) :
    0 ≤ b.texU lon ∧ b.texU lon ≤ 1 := by
  have hle := h.eastward_le_span
  have h0 := eastward_nonneg b.west lon
  rcases le_or_gt b.span tolerance with hspan | hspan
  · have hmeridian : b.texU lon = 0 := if_pos hspan
    rw [hmeridian]
    exact ⟨le_refl 0, zero_le_one⟩
  have hpos : 0 < b.span := tolerance_pos.trans hspan
  rcases texU_cases hspan lon with ⟨-, hone⟩ | ⟨-, hshare⟩
  · rw [hone]
    exact ⟨zero_le_one, le_refl 1⟩
  · rw [hshare, lonPosition_of_le hle]
    exact ⟨div_nonneg h0 hpos.le, (div_le_one hpos).2 hle⟩

/-- A point of a rectangle has its coordinate down within the picture. -/
theorem Holds.texV_mem (h : b.Holds lon lat) : 0 ≤ b.texV lat ∧ b.texV lat ≤ 1 := by
  obtain ⟨-, hs, hn⟩ := holds_iff.1 h
  unfold texV
  dsimp only
  split
  · exact ⟨le_refl 0, zero_le_one⟩
  · next hheight =>
    have hpos : 0 < b.north - b.south := tolerance_pos.trans (not_le.1 hheight)
    exact ⟨div_nonneg (sub_nonneg.2 hn) hpos.le, (div_le_one hpos).2 (by linarith)⟩

/-! ## Pulling the edges in -/

/-- A rectangle with its edges moved inward, by the margins that fit it. -/
theorem shrunk_eq (hb : b.WellFormed) (margin : ℚ) :
    b.shrunk margin =
      { west := normalizeLon (b.west + min margin (b.span / 2))
        span := b.span - 2 * min margin (b.span / 2)
        south := b.south + min margin ((b.north - b.south) / 2)
        north := b.north - min margin ((b.north - b.south) / 2) } := by
  rw [← least_eq_min, ← least_eq_min]
  exact if_neg (Bool.eq_false_iff.1 hb.isEmpty_eq_false)

/-- A rectangle with its edges moved inward is well-formed. -/
theorem WellFormed.shrunk {margin : ℚ} (hb : b.WellFormed) (hm : 0 ≤ margin) :
    (b.shrunk margin).WellFormed := by
  have hspan := hb.zero_le_span
  have hturn := hb.span_le_turn
  have hlat := hb.south_le_north
  have hlon := min_le_right margin (b.span / 2)
  have hlon0 : 0 ≤ min margin (b.span / 2) := le_min hm (by linarith)
  have hheight := min_le_right margin ((b.north - b.south) / 2)
  rw [shrunk_eq hb, wellFormed_iff]
  exact ⟨le_normalizeLon _, normalizeLon_lt _, by linarith, by linarith, by linarith⟩

/-- The longitudes that are left when the edges are moved inward are as far inside of either edge as
the edges are moved. -/
theorem exists_east_shrunk_iff {margin : ℚ} (hb : b.WellFormed) :
    (∃ t, 0 ≤ t ∧ t ≤ (b.shrunk margin).span ∧ SameMeridian ((b.shrunk margin).west + t) lon)
      ↔ ∃ t, min margin (b.span / 2) ≤ t ∧ t ≤ b.span - min margin (b.span / 2)
        ∧ SameMeridian (b.west + t) lon := by
  rw [shrunk_eq hb]
  dsimp only
  have hwest := sameMeridian_normalizeLon (b.west + min margin (b.span / 2))
  constructor
  · rintro ⟨t, ht0, ht1, ht⟩
    refine ⟨min margin (b.span / 2) + t, by linarith, by linarith, ?_⟩
    rw [← add_assoc]
    exact (hwest.symm.add_right t).trans ht
  · rintro ⟨t, ht0, ht1, ht⟩
    refine ⟨t - min margin (b.span / 2), by linarith, by linarith, ?_⟩
    have hmove := hwest.add_right (t - min margin (b.span / 2))
    rw [add_assoc, add_sub_cancel] at hmove
    exact hmove.trans ht

/-- Moving the edges inward keeps the latitudes between the old ones. -/
theorem shrunk_lat {margin : ℚ} (hb : b.WellFormed) (hm : 0 ≤ margin) :
    b.south ≤ (b.shrunk margin).south ∧ (b.shrunk margin).north ≤ b.north := by
  have hlat := hb.south_le_north
  have h0 : 0 ≤ min margin ((b.north - b.south) / 2) := le_min hm (by linarith)
  rw [shrunk_eq hb]
  exact ⟨le_add_of_nonneg_right h0, sub_le_self _ h0⟩

/-! ## Moving a point inside -/

/-- The longitude that a longitude is moved to is one of the rectangle. -/
theorem exists_east_clampLon (hb : b.WellFormed) (lon : ℚ) :
    ∃ t, 0 ≤ t ∧ t ≤ b.span ∧ SameMeridian (b.west + t) (b.clampLon lon) := by
  have hspan := hb.zero_le_span
  unfold clampLon
  dsimp only
  split
  · exact ⟨0, le_refl 0, hspan, by rw [add_zero]; exact .refl _⟩
  · next hwest =>
    split
    · exact ⟨b.span, hspan, le_refl _, (sameMeridian_normalizeLon _).symm⟩
    · next heast =>
      have hposition : -0 ≤ b.lonPosition lon ∧ b.lonPosition lon ≤ b.span + 0 := by
        rw [neg_zero, add_zero]
        exact ⟨not_lt.1 hwest, not_lt.1 heast⟩
      obtain ⟨t, ht0, ht1, ht⟩ := (exists_east_iff_lonPosition hspan (le_refl 0)).2 hposition
      exact ⟨t, by linarith, by linarith, ht.trans (sameMeridian_normalizeLon lon).symm⟩

/-- A well-formed rectangle moves every point to one of its own. -/
theorem clamp?_spec (hb : b.WellFormed) (lon lat : ℚ) :
    b.clamp? lon lat = some (b.clampLon lon, between b.south b.north lat)
      ∧ b.Holds (b.clampLon lon) (between b.south b.north lat) := by
  have hlat := hb.south_le_north
  constructor
  · unfold clamp?
    rw [hb.isEmpty_eq_false, if_neg Bool.false_ne_true]
    exact if_pos hlat
  · rw [between_eq_max_min hlat]
    exact holds_iff.2 ⟨exists_east_clampLon hb lon, le_max_left _ _, max_le hlat (min_le_left _ _)⟩

/-! ## Reaching an edge -/

/-- A rectangle reaches the eastern edge of another when that edge, measured from the western edge
of the first, is at most the tolerance beyond its span. -/
theorem reachesEastOf_iff {a : Bounds ℚ} (ha : a.WellFormed) (hb : b.WellFormed) :
    a.reachesEastOf b = true ↔ a.lonPosition b.west + b.span ≤ a.span + tolerance := by
  unfold reachesEastOf
  rw [ha.isEmpty_eq_false, hb.isEmpty_eq_false]
  exact decide_eq_true_iff

/-- A rectangle reaches the northern edge of another when that edge is at most the tolerance beyond
its own. -/
theorem reachesNorthOf_iff {a : Bounds ℚ} (ha : a.WellFormed) (other : Bounds ℚ) :
    a.reachesNorthOf other = true ↔ other.north ≤ a.north + tolerance := by
  unfold reachesNorthOf
  rw [ha.isEmpty_eq_false, Bool.not_false, Bool.true_and, decide_eq_true_iff]

end Orthomosaic.Bounds
