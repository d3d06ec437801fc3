import Orthomosaic.Longitude
import Orthomosaic.Proofs.Scalar.Exact

/-!
# Meridians

In exact arithmetic `normalizeLon` and `eastward` are the two usual ways of naming an element of the
circle: by its representative in `[-180, 180)`, and by the representative in `[0, 360)` of its
distance from another element. `SameMeridian` is the congruence behind both. A proof about
longitudes exhibits the number of turns between two names and settles the rest in linear arithmetic.
-/

namespace Orthomosaic

open Scalar

/-- Two longitudes that name one meridian: they differ by whole turns. -/
def SameMeridian (a b : ℚ) : Prop :=
  ∃ turns : ℤ, b = a + 360 * turns

namespace SameMeridian

variable {a b c : ℚ}

theorem refl (a : ℚ) : SameMeridian a a :=
  ⟨0, by simp⟩

/-- The relation does not depend on the order of the two names. -/
theorem symm (h : SameMeridian a b) : SameMeridian b a := by
  obtain ⟨k, hk⟩ := h
  refine ⟨-k, ?_⟩
  push_cast
  linarith

/-- A name of a name is a name. -/
theorem trans (hab : SameMeridian a b) (hbc : SameMeridian b c) : SameMeridian a c := by
  obtain ⟨k, hk⟩ := hab
  obtain ⟨l, hl⟩ := hbc
  refine ⟨k + l, ?_⟩
  push_cast
  linarith

theorem add_right (h : SameMeridian a b) (c : ℚ) : SameMeridian (a + c) (b + c) := by
  obtain ⟨k, hk⟩ := h
  exact ⟨k, by linarith⟩

/-- Two names of one meridian that are less than a turn apart are one number. -/
theorem eq_of_lt (h : SameMeridian a b) (hab : a < b + 360) (hba : b < a + 360) : a = b := by
  obtain ⟨k, rfl⟩ := h
  have h0 : (-1 : ℚ) < k := by linarith
  have h1 : (k : ℚ) < 1 := by linarith
  have hk : k = 0 := by
    have : -1 < k := by exact_mod_cast h0
    have : k < 1 := by exact_mod_cast h1
    omega
  simp [hk]

end SameMeridian

/-! ## The name in `[-180, 180)` -/

theorem normalizeLon_eq (lon : ℚ) : normalizeLon lon = turnPart (lon + 180) - 180 := by
  have h := turnPart_lt (lon + 180)
  exact if_neg (by change ¬ (180 : ℚ) ≤ turnPart (lon + 180) - 180; linarith)

theorem le_normalizeLon (lon : ℚ) : -180 ≤ normalizeLon lon := by
  rw [normalizeLon_eq]
  linarith [turnPart_nonneg (lon + 180)]

theorem normalizeLon_lt (lon : ℚ) : normalizeLon lon < 180 := by
  rw [normalizeLon_eq]
  linarith [turnPart_lt (lon + 180)]

theorem sameMeridian_normalizeLon (lon : ℚ) : SameMeridian (normalizeLon lon) lon := by
  refine ⟨⌊(lon + 180) / 360⌋, ?_⟩
  rw [normalizeLon_eq, turnPart_eq]
  ring

/-- The normalised name is the only one in `[-180, 180)`. -/
theorem normalizeLon_eq_of {lon x : ℚ} (h : SameMeridian x lon) (h0 : -180 ≤ x) (h1 : x < 180) :
    normalizeLon lon = x := by
  have h2 := le_normalizeLon lon
  have h3 := normalizeLon_lt lon
  exact ((sameMeridian_normalizeLon lon).trans h.symm).eq_of_lt (by linarith) (by linarith)

theorem normalizeLon_of_mem {lon : ℚ} (h0 : -180 ≤ lon) (h1 : lon < 180) :
    normalizeLon lon = lon :=
  normalizeLon_eq_of (.refl lon) h0 h1

/-- The normalised name belongs to the meridian, not to the name that it is made from. -/
theorem normalizeLon_congr {lon lon' : ℚ} (h : SameMeridian lon lon') :
    normalizeLon lon = normalizeLon lon' :=
  (normalizeLon_eq_of ((sameMeridian_normalizeLon lon).trans h) (le_normalizeLon lon)
    (normalizeLon_lt lon)).symm

/-! ## The way east -/

theorem eastward_eq (start finish : ℚ) : eastward start finish = turnPart (finish - start) :=
  if_neg (not_le.2 (turnPart_lt (finish - start)))

theorem eastward_nonneg (start finish : ℚ) : 0 ≤ eastward start finish := by
  rw [eastward_eq]
  exact turnPart_nonneg _

theorem eastward_lt (start finish : ℚ) : eastward start finish < 360 := by
  rw [eastward_eq]
  exact turnPart_lt _

/-- The way east leads to the meridian asked for. -/
theorem sameMeridian_eastward (start finish : ℚ) :
    SameMeridian (start + eastward start finish) finish := by
  refine ⟨⌊(finish - start) / 360⌋, ?_⟩
  rw [eastward_eq, turnPart_eq]
  ring

/-- The way east is the only angle in `[0, 360)` that leads to the meridian asked for. -/
theorem eastward_eq_of {start finish d : ℚ} (h : SameMeridian (start + d) finish) (h0 : 0 ≤ d)
    (h1 : d < 360) : eastward start finish = d := by
  have h2 := eastward_nonneg start finish
  have h3 := eastward_lt start finish
  have h4 := ((sameMeridian_eastward start finish).trans h.symm).eq_of_lt
    (by linarith) (by linarith)
  linarith

/-- The way east is the smallest angle that is not negative and leads to the meridian asked for. -/
theorem eastward_le_of {start finish d : ℚ} (h : SameMeridian (start + d) finish) (h0 : 0 ≤ d) :
    eastward start finish ≤ d := by
  rcases lt_or_ge d 360 with hless | hturn
  · exact (eastward_eq_of h h0 hless).le
  · exact (eastward_lt start finish).le.trans hturn

theorem eastward_congr {start finish finish' : ℚ} (h : SameMeridian finish finish') :
    eastward start finish = eastward start finish' :=
  eastward_eq_of ((sameMeridian_eastward start finish').trans h.symm)
    (eastward_nonneg start finish') (eastward_lt start finish')

end Orthomosaic
