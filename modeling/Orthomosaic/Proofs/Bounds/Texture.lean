import Orthomosaic.Proofs.Bounds.Near

/-!
# Texture coordinates undo the map from the picture

A picture is spread over a rectangle by going `u` of the span east from the western edge and `v` of the
height south from the northern one. On the way east longitudes are not wrapped, so the eastern edge of a
ring is `west + 360`, the spelling by which `texU` tells it from the western one. Every other point has
coordinates that depend on its meridian only, as long as the rectangle is no ring: the case of the seam
is then never met (`Bounds.texU_congr`). `Bounds.texCoord_undoes_spread` has both.
-/

namespace Orthomosaic.Bounds

open Scalar

variable {b : Bounds ℚ} {lon lon' t : ℚ}

/-! ## Across -/

/-- Going east from the western edge, the coordinate across is the share of the span that lies behind. -/
theorem texU_west_add (h : tolerance < b.span) (hturn : b.span ≤ 360) (h0 : 0 ≤ t) (ht : t ≤ b.span) :
    b.texU (b.west + t) = t / b.span := by
  have htol := tolerance_eq
  have heast : b.west + t - b.eastUnwrapped = t - b.span := add_sub_add_left_eq_sub _ _ _
  rcases lt_or_ge t 360 with hless | hfull
  · have hd : b.lonPosition (b.west + t) = t := by
      have heastward := eastward_eq_of (SameMeridian.refl (b.west + t)) h0 hless
      rw [lonPosition_of_le (heastward.trans_le ht), heastward]
    rcases texU_cases h (b.west + t) with ⟨⟨hnear, hring, hedge⟩, -⟩ | ⟨-, hshare⟩
    · -- a ring is too wide for a point to be close to both of its edges
      rw [heast] at hedge
      rw [hd] at hnear
      linarith [(abs_le.1 hedge).1]
    · rw [hshare, hd]
  · -- the eastern edge of a full ring
    obtain rfl : t = 360 := by linarith
    have hspan : b.span = 360 := le_antisymm hturn ht
    have hd : b.lonPosition (b.west + 360) = 0 := by
      have heastward : eastward b.west (b.west + 360) = 0 :=
        eastward_eq_of ⟨1, by norm_num⟩ (le_refl 0) (by norm_num)
      rw [lonPosition_of_le (by rw [heastward]; linarith), heastward]
    have hseam : b.AtSeam (b.west + 360) := by
      refine ⟨by linarith, by linarith, ?_⟩
      rw [heast, hspan, sub_self, abs_zero, htol]
      norm_num
    rcases texU_cases h (b.west + 360) with ⟨-, hone⟩ | ⟨hnot, -⟩
    · rw [hone, hspan, div_self (by norm_num)]
    · exact absurd hseam hnot

/-- Unless the rectangle is a ring, the coordinate across depends on the meridian only. -/
theorem texU_congr (hgap : b.span < 360 - tolerance) (h : SameMeridian lon lon') :
    b.texU lon = b.texU lon' := by
  have hring : ¬ (360 - tolerance ≤ b.span) := not_le.2 hgap
  by_cases hspan : b.span ≤ tolerance
  · exact (if_pos hspan).trans (if_pos hspan).symm
  · rcases texU_cases (not_le.1 hspan) lon with ⟨hseam, -⟩ | ⟨-, hfirst⟩
    · exact absurd hseam.2.1 hring
    rcases texU_cases (not_le.1 hspan) lon' with ⟨hseam, -⟩ | ⟨-, hsecond⟩
    · exact absurd hseam.2.1 hring
    rw [hfirst, hsecond, lonPosition_congr h]

/-! ## The picture and the rectangle -/

/-- Texture coordinates take a point of the rectangle back to the place of the picture that is spread
there, the eastern edge of a ring included, so they grow strictly eastward and strictly southward.
Unless the rectangle is a ring, no point's coordinates depend on the turns in its longitude. -/
theorem texCoord_undoes_spread (hb : b.WellFormed) :
    (tolerance < b.span → tolerance < b.height →
      (∀ u v : ℚ, 0 ≤ u → u ≤ 1 → 0 ≤ v → v ≤ 1 →
        b.texCoord (b.west + u * b.span) (b.north - v * b.height) = (u, v))
      ∧ (∀ s t lat : ℚ, 0 ≤ s → s < t → t ≤ b.span →
        (b.texCoord (b.west + s) lat).1 < (b.texCoord (b.west + t) lat).1)
      ∧ ∀ lon lat lat' : ℚ, lat < lat' → (b.texCoord lon lat').2 < (b.texCoord lon lat).2)
    ∧ (b.span < 360 - tolerance → ∀ (lon lat : ℚ) (turns : ℤ),
        b.texCoord (lon + 360 * turns) lat = b.texCoord lon lat) := by
  have hturn := hb.span_le_turn
  have htol := tolerance_pos
  refine ⟨fun hspan hheight => ?_, fun hgap lon lat turns => ?_⟩
  · have hpos : 0 < b.span := htol.trans hspan
    have hpos' : 0 < b.north - b.south := by
      rw [← hb.height_eq]
      exact htol.trans hheight
    have hdown : ∀ lat, b.texV lat = (b.north - lat) / (b.north - b.south) := fun lat =>
      texV_eq (hb.height_eq ▸ hheight)
    refine ⟨fun u v hu0 hu1 hv0 hv1 => ?_, fun s t lat hs hst ht => ?_, fun lon lat lat' hlat => ?_⟩
    · rw [hb.texCoord_eq, hdown, hb.height_eq, texU_west_add hspan hturn (mul_nonneg hu0 hpos.le)
        (mul_le_of_le_one_left hpos.le hu1), mul_div_cancel_right₀ u hpos.ne', sub_sub_cancel,
        mul_div_cancel_right₀ v hpos'.ne']
    · rw [hb.texCoord_eq, hb.texCoord_eq, texU_west_add hspan hturn hs (hst.le.trans ht),
        texU_west_add hspan hturn (hs.trans hst.le) ht]
      exact div_lt_div_of_pos_right hst hpos
    · rw [hb.texCoord_eq, hb.texCoord_eq, hdown, hdown]
      exact div_lt_div_of_pos_right (by linarith) hpos'
  · rw [hb.texCoord_eq, hb.texCoord_eq, texU_congr hgap (SameMeridian.symm ⟨turns, rfl⟩)]

/-- A ring that starts at 170 degrees east, at its eastern edge, and a rectangle across the antimeridian,
at a point whose longitude is spelled two turns further. -/
theorem texCoord_undoes_spread_at_seam :
    (⟨170, 360, 89, 90⟩ : Bounds ℚ).WellFormed
      ∧ (⟨170, 360, 89, 90⟩ : Bounds ℚ).texCoord (170 + 1 * 360) (90 - 1 * 1) = (1, 1)
      ∧ (⟨179, 2, 0, 1⟩ : Bounds ℚ).WellFormed
      ∧ (⟨179, 2, 0, 1⟩ : Bounds ℚ).texCoord (-179.5 + 360 * (2 : ℤ)) 0.5
        = (⟨179, 2, 0, 1⟩ : Bounds ℚ).texCoord (-179.5) 0.5 := by
  have hring : (⟨170, 360, 89, 90⟩ : Bounds ℚ).WellFormed := by decide +kernel
  have hbox : (⟨179, 2, 0, 1⟩ : Bounds ℚ).WellFormed := by decide +kernel
  have hheight : (⟨170, 360, 89, 90⟩ : Bounds ℚ).height = 1 := by
    rw [hring.height_eq]
    norm_num
  have htol := tolerance_eq
  obtain ⟨hspread, -⟩ := (texCoord_undoes_spread hring).1
    (show tolerance < (360 : ℚ) by rw [htol]; norm_num) (by rw [hheight, htol]; norm_num)
  have hcorner := hspread 1 1 zero_le_one le_rfl zero_le_one le_rfl
  rw [hheight] at hcorner
  exact ⟨hring, hcorner, hbox, (texCoord_undoes_spread hbox).2
    (show (2 : ℚ) < 360 - tolerance by rw [htol]; norm_num) (-179.5) 0.5 2⟩

end Orthomosaic.Bounds
