import Orthomosaic.Proofs.Bounds.Union

/-!
# Rectangles between edges

`Bounds.ofEdges` takes the western and the eastern longitude in any spelling and adds one turn to a
difference below zero. One turn is enough for an eastern edge that lies less than a turn west of the western
one, and there the rectangle is in the stored form and has the four corners. A difference below minus a turn
stays negative, and the rectangle is neither (`Bounds.ofEdges_spec`).
-/

namespace Orthomosaic.Bounds

open Scalar

variable {west south east north lon lat : ℚ}

/-- The way from a western edge to an eastern one, with a turn added if it is negative. -/
def edgeSpan (west east : ℚ) : ℚ :=
  if east - west < 0 then east - west + 360 else east - west

theorem ofEdges_eq (west south east north : ℚ) :
    ofEdges west south east north
      = ⟨normalizeLon west, min (edgeSpan west east) 360, min south north, max south north⟩ := by
  simp [ofEdges, edgeSpan, least_eq_min, greatest_eq_max]

/-- The way leads to the eastern edge. -/
theorem sameMeridian_edgeSpan (west east : ℚ) :
    SameMeridian (normalizeLon west + edgeSpan west east) east := by
  obtain ⟨k, hk⟩ := (sameMeridian_normalizeLon west).add_right (edgeSpan west east)
  unfold edgeSpan at hk ⊢
  split_ifs at hk ⊢
  · exact ⟨k - 1, by push_cast; linarith⟩
  · exact ⟨k, by linarith⟩

/-- The way is shorter than a turn below zero exactly when the difference is. -/
theorem le_edgeSpan_iff {ε : ℚ} (hε : 0 ≤ ε) (west east : ℚ) :
    -ε ≤ edgeSpan west east ↔ -360 - ε ≤ east - west := by
  unfold edgeSpan
  split_ifs <;> constructor <;> intro h <;> linarith

/-! ## The stored form -/

theorem isEmpty_ofEdges (west south east north : ℚ) :
    (ofEdges west south east north).isEmpty = false := by
  rw [ofEdges_eq]
  exact decide_eq_false (not_lt.2 min_le_max)

/-- A rectangle between edges is in the stored form when the way between them is not negative. -/
theorem wellFormed_ofEdges_iff :
    (ofEdges west south east north).WellFormed ↔ 0 ≤ edgeSpan west east := by
  rw [ofEdges_eq, wellFormed_iff]
  constructor
  · rintro ⟨-, -, hspan, -, -⟩
    exact hspan.trans (min_le_left _ _)
  · intro hspan
    exact ⟨le_normalizeLon west, normalizeLon_lt west, le_min hspan (by norm_num),
      min_le_right _ _, min_le_max⟩

/-! ## Corners -/

/-- Both longitudes are reached from the western edge within the span, if the way between them is not
negative. -/
theorem exists_east_ofEdges (hspan : 0 ≤ edgeSpan west east) (hlon : lon = west ∨ lon = east) :
    ∃ t, 0 ≤ t ∧ t ≤ min (edgeSpan west east) 360 ∧ SameMeridian (normalizeLon west + t) lon := by
  rcases hlon with rfl | rfl
  · refine ⟨0, le_refl 0, le_min hspan (by norm_num), ?_⟩
    rw [add_zero]
    exact sameMeridian_normalizeLon lon
  · rcases le_total (edgeSpan west lon) 360 with hless | hturn
    · exact ⟨edgeSpan west lon, hspan, le_min le_rfl hless, sameMeridian_edgeSpan west lon⟩
    · rw [min_eq_right hturn]
      exact ⟨eastward (normalizeLon west) lon, eastward_nonneg _ _, (eastward_lt _ _).le,
        sameMeridian_eastward _ _⟩

/-- A point between the latitudes is inside when its longitude is measured to be. -/
theorem contains_ofEdges_iff (hlat : lat = south ∨ lat = north) :
    (ofEdges west south east north).contains lon lat = true ↔
      -tolerance ≤ (ofEdges west south east north).lonPosition lon
        ∧ (ofEdges west south east north).lonPosition lon ≤ min (edgeSpan west east) 360 + tolerance := by
  have htol := tolerance_pos
  have hlow : min south north ≤ lat := by
    rcases hlat with rfl | rfl
    · exact min_le_left _ _
    · exact min_le_right _ _
  have hhigh : lat ≤ max south north := by
    rcases hlat with rfl | rfl
    · exact le_max_left _ _
    · exact le_max_right _ _
  have hout : ¬ (lat < min south north - tolerance ∨ max south north + tolerance < lat) := by
    rw [not_or, not_lt, not_lt]
    constructor <;> linarith
  unfold contains
  rw [isEmpty_ofEdges, ofEdges_eq, if_neg Bool.false_ne_true, if_neg hout]
  exact decide_eq_true_iff

/-- The western edge is measured at its place, unless the span is more than a turn below zero. -/
theorem lonPosition_ofEdges_west (west south east north : ℚ) :
    (ofEdges west south east north).lonPosition west
      = if edgeSpan west east < -360 then -360 else 0 := by
  have hzero : eastward (normalizeLon west) west = 0 :=
    eastward_eq_of (by rw [add_zero]; exact sameMeridian_normalizeLon west) le_rfl (by norm_num)
  rw [lonPosition_eq, ofEdges_eq, hzero]
  refine if_congr ?_ (by norm_num) rfl
  constructor
  · rintro ⟨-, hfar⟩
    by_contra hspan
    have hmin : -360 ≤ min (edgeSpan west east) 360 := le_min (not_lt.1 hspan) (by norm_num)
    linarith
  · intro hspan
    have hmin := min_le_left (edgeSpan west east) 360
    constructor <;> linarith

/-- A span just below zero ends at the eastern edge. -/
theorem lonPosition_ofEdges_east (hturn : -360 < edgeSpan west east) (hspan : edgeSpan west east < 0) :
    (ofEdges west south east north).lonPosition east = edgeSpan west east := by
  have heast : eastward (normalizeLon west) east = edgeSpan west east + 360 := by
    refine eastward_eq_of ?_ (by linarith) (by linarith)
    obtain ⟨k, hk⟩ := sameMeridian_edgeSpan west east
    exact ⟨k - 1, by push_cast; linarith⟩
  have hmin : min (edgeSpan west east) 360 = edgeSpan west east := min_eq_left (by linarith)
  rw [lonPosition_eq, ofEdges_eq, heast, hmin, if_pos (by constructor <;> linarith), add_sub_cancel_right]

/-- A corner at the western edge is inside only if the way between the edges is negative by the tolerance at
most. -/
theorem le_edgeSpan_of_contains (hlat : lat = south ∨ lat = north)
    (h : (ofEdges west south east north).contains west lat = true) :
    -tolerance ≤ edgeSpan west east := by
  have htol := tolerance_eq
  have hmin := min_le_left (edgeSpan west east) 360
  rw [contains_ofEdges_iff hlat, lonPosition_ofEdges_west] at h
  split_ifs at h <;> linarith [h.1, h.2]

/-- Every corner is inside if the way between the edges is negative by the tolerance at most. -/
theorem contains_corner (hspan : -tolerance ≤ edgeSpan west east) (hlon : lon = west ∨ lon = east)
    (hlat : lat = south ∨ lat = north) : (ofEdges west south east north).contains lon lat = true := by
  have htol := tolerance_eq
  rcases le_or_gt 0 (edgeSpan west east) with hform | hbelow
  · have hwf : (ofEdges west south east north).WellFormed := wellFormed_ofEdges_iff.2 hform
    obtain ⟨t, ht0, ht1, ht⟩ := exists_east_ofEdges hform hlon
    have hends : (ofEdges west south east north).span = min (edgeSpan west east) 360 := by
      rw [ofEdges_eq]
    rw [contains_ofEdges_iff hlat, ← hends]
    refine (exists_east_iff_lonPosition hwf.zero_le_span tolerance_pos.le).1 ?_
    rw [ofEdges_eq]
    exact ⟨t, by linarith, by linarith, ht⟩
  · -- the span is negative, by less than what counts as a difference
    have hmin : min (edgeSpan west east) 360 = edgeSpan west east := min_eq_left (by linarith)
    rw [contains_ofEdges_iff hlat, hmin]
    rcases hlon with rfl | rfl
    · rw [lonPosition_ofEdges_west, if_neg (by linarith)]
      constructor <;> linarith
    · rw [lonPosition_ofEdges_east (by linarith) hbelow]
      constructor <;> linarith

/-! ## Rectangles between any edges -/

/-- A rectangle between edges is never empty. It is in the stored form exactly when the eastern longitude is
at most a turn below the western one, as the numbers are given, and it contains its four corners exactly when
that is so up to the tolerance. -/
theorem ofEdges_spec (west south east north : ℚ) :
    (ofEdges west south east north).isEmpty = false
      ∧ ((ofEdges west south east north).WellFormed ↔ west - east ≤ 360)
      ∧ ((∀ lon ∈ [west, east], ∀ lat ∈ [south, north],
          (ofEdges west south east north).contains lon lat = true) ↔ west - east ≤ 360 + tolerance) := by
  refine ⟨isEmpty_ofEdges west south east north, ?_, ?_⟩
  · have hspan := le_edgeSpan_iff (le_refl 0) west east
    rw [wellFormed_ofEdges_iff, ← neg_zero, hspan]
    constructor <;> intro h <;> linarith
  · have hspan := le_edgeSpan_iff tolerance_pos.le west east
    constructor
    · intro h
      have hcorner := h west (by simp) south (by simp)
      linarith [hspan.1 (le_edgeSpan_of_contains (.inl rfl) hcorner)]
    · intro h lon hlon lat hlat
      exact contains_corner (hspan.2 (by linarith)) (by simpa using hlon) (by simpa using hlat)

/-- From 500 to 0 degrees, more than a turn back: the span is negative, and none of the corners is inside. -/
theorem not_wellFormed_ofEdges_beyond_turn :
    (ofEdges 500 0 0 1 : Bounds ℚ) = ⟨140, -140, 0, 1⟩
      ∧ ¬ (ofEdges 500 0 0 1 : Bounds ℚ).WellFormed
      ∧ ∀ lon ∈ [(500 : ℚ), 0], ∀ lat ∈ [(0 : ℚ), 1],
        (ofEdges 500 0 0 1 : Bounds ℚ).contains lon lat = false := by
  refine ⟨(Bounds.mk.injEq ..).mpr (by decide +kernel), by decide +kernel, ?_⟩
  simp only [List.forall_mem_cons]
  decide +kernel

end Orthomosaic.Bounds
