import Mathlib.Data.Rat.Floor
import Mathlib.Tactic.FieldSimp
import Mathlib.Tactic.Linarith
import Mathlib.Tactic.NormNum
import Orthomosaic.Scalar.Rational

/-!
# Exact arithmetic

On the rationals every operation of `Scalar` is one that orders and floors already give. Later
proofs read the operations through the equations of this file and never unfold the instance.
-/

namespace Orthomosaic.Scalar

@[simp] theorem literal_eq (n : ℕ) : @OfNat.ofNat ℚ n (instOfNat n) = (n : ℚ) :=
  Int.cast_natCast n

@[simp] theorem ofNat_eq_cast (n : ℕ) : (ofNat n : ℚ) = (n : ℚ) :=
  Int.cast_natCast n

theorem isNumber_rat (x : ℚ) : isNumber x = true :=
  decide_eq_true (le_refl x)

/-- The smaller of two rationals is their minimum. -/
theorem least_eq_min (x y : ℚ) : least x y = min x y := by
  unfold least
  rw [if_pos (isNumber_rat x)]
  rcases lt_or_ge y x with h | h
  · rw [if_pos h, min_eq_right h.le]
  · rw [if_neg (not_lt.2 h), min_eq_left h]

/-- The greater of two rationals is their maximum. -/
theorem greatest_eq_max (x y : ℚ) : greatest x y = max x y := by
  unfold greatest
  rw [if_pos (isNumber_rat x)]
  rcases lt_or_ge x y with h | h
  · rw [if_pos h, max_eq_right h.le]
  · rw [if_neg (not_lt.2 h), max_eq_left h]

theorem magnitude_eq_abs (x : ℚ) : magnitude x = |x| := by
  rcases lt_or_ge x 0 with h | h
  · exact (if_pos h).trans (abs_of_neg h).symm
  · exact (if_neg (not_lt.2 h)).trans (abs_of_nonneg h).symm

/-- Moving a rational between two bounds that are in order. -/
theorem between_eq_max_min {low high : ℚ} (h : low ≤ high) (x : ℚ) :
    between low high x = max low (min high x) := by
  unfold between
  dsimp only
  rcases lt_or_ge x low with hx | hx
  · rw [if_pos hx, if_neg (not_lt.2 h), min_eq_right (hx.le.trans h), max_eq_left hx.le]
  · rw [if_neg (not_lt.2 hx)]
    rcases lt_or_ge high x with hh | hh
    · rw [if_pos hh, min_eq_left hh.le, max_eq_right h]
    · rw [if_neg (not_lt.2 hh), min_eq_right hh, max_eq_right hx]

/-- What whole turns leave over, by the floor of the number of turns. -/
theorem turnPart_eq (x : ℚ) : turnPart x = x - 360 * (⌊x / 360⌋ : ℚ) :=
  rfl

theorem turnPart_nonneg (x : ℚ) : 0 ≤ turnPart x := by
  have h := Int.floor_le (x / 360)
  rw [turnPart_eq]
  linarith

theorem turnPart_lt (x : ℚ) : turnPart x < 360 := by
  have h := Int.lt_floor_add_one (x / 360)
  rw [turnPart_eq]
  linarith

/-- A rational at or above zero is cut off to its floor. -/
theorem truncate_of_nonneg {x : ℚ} (h : 0 ≤ x) (hx : x < 2147483648) :
    (truncate x : ℤ) = ⌊x⌋ := by
  have h0 : 0 ≤ ⌊x⌋ := Int.floor_nonneg.2 h
  have h1 : ⌊x⌋ < 2147483648 := Int.floor_lt.2 (by exact_mod_cast hx)
  have hpart : Rational.integerPart x = ⌊x⌋ := if_pos h
  change max (-2147483648) (min 2147483647 (Rational.integerPart x)) = ⌊x⌋
  omega

/-- A rational below zero is cut off to its ceiling. -/
theorem truncate_of_neg {x : ℚ} (h : x < 0) (hx : -2147483649 < x) :
    (truncate x : ℤ) = ⌈x⌉ := by
  have h0 : ⌈x⌉ ≤ 0 := Int.ceil_le.2 (by exact_mod_cast h.le)
  have h1 : -2147483649 < ⌈x⌉ := Int.lt_ceil.2 (by exact_mod_cast hx)
  have hpart : Rational.integerPart x = ⌈x⌉ :=
    (if_neg (not_le.2 h)).trans (Rat.ceil_eq_neg_floor_neg x)
  change max (-2147483648) (min 2147483647 (Rational.integerPart x)) = ⌈x⌉
  omega

/-- Cutting off leaves what is below a positive whole number below it. -/
theorem truncate_lt {x : ℚ} {n : ℤ} (hn : 0 < n) (h : x < n) : (truncate x : ℤ) < n := by
  have hpart : Rational.integerPart x < n := by
    rcases le_or_gt 0 x with hx | hx
    · rw [show Rational.integerPart x = ⌊x⌋ from if_pos hx]
      exact Int.floor_lt.2 h
    · have hceil : ⌈x⌉ ≤ 0 := Int.ceil_le.2 (by exact_mod_cast hx.le)
      have heq : Rational.integerPart x = ⌈x⌉ :=
        (if_neg (not_le.2 hx)).trans (Rat.ceil_eq_neg_floor_neg x)
      omega
  change max (-2147483648) (min 2147483647 (Rational.integerPart x)) < n
  omega

/-- Cutting off leaves what is at or above a whole number up to zero there. -/
theorem le_truncate {x : ℚ} {n : ℤ} (hn : n ≤ 0) (h : n ≤ x) : n ≤ (truncate x : ℤ) := by
  have hpart : n ≤ Rational.integerPart x := by
    rcases le_or_gt 0 x with hx | hx
    · rw [show Rational.integerPart x = ⌊x⌋ from if_pos hx]
      exact hn.trans (Int.floor_nonneg.2 hx)
    · have hceil : n ≤ ⌈x⌉ := by exact_mod_cast h.trans (Int.le_ceil x)
      have heq : Rational.integerPart x = ⌈x⌉ :=
        (if_neg (not_le.2 hx)).trans (Rat.ceil_eq_neg_floor_neg x)
      omega
  change n ≤ max (-2147483648) (min 2147483647 (Rational.integerPart x))
  omega

end Orthomosaic.Scalar
