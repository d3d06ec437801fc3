import Orthomosaic.Proofs.Binary64.Arithmetic

/-!
# Comparing doubles

Doubles that stand for numbers are compared as these numbers (`Denotes.lt_iff`, `Denotes.le_iff`).
The comparison is made on the forms, first of the exponents and then of the mantissas, and this is
right because only one form of each number is kept: of two forms with different exponents the one
with the greater exponent is the greater number (`Canonical.lt_of_lt`).

Every other double is `nan` or an infinity, and an infinity is on one side of all numbers.
-/

namespace Orthomosaic.Binary64

open Float.Model UnpackedFloat

variable {x y : Float} {p q : ℚ}

/-! ## Numbers -/

/-- A form with a greater exponent stands for a greater number. -/
theorem Canonical.lt_of_lt {m m' : ℕ} {e e' : ℤ} (h : Canonical m e) (h' : Canonical m' e')
    (he : e < e') : (m : ℚ) * 2 ^ e < m' * 2 ^ e' := by
  have hm : (m : ℚ) < 2 ^ 53 := by exact_mod_cast h.m_lt
  have hfull : (2 ^ 52 : ℚ) ≤ m' := by
    exact_mod_cast h'.normal.resolve_right (by have := h.le_e; omega)
  have hpos : (0 : ℚ) < 2 ^ e := by positivity
  have hpow : (2 : ℚ) ^ (e + 1) ≤ 2 ^ e' := zpow_le_zpow_right₀ (by norm_num) he
  calc
    (m : ℚ) * 2 ^ e < 2 ^ 53 * 2 ^ e := mul_lt_mul_of_pos_right hm hpos
    _ = 2 ^ 52 * 2 ^ (e + 1) := by rw [zpow_add₀ (by norm_num)]; ring
    _ ≤ m' * 2 ^ e' := mul_le_mul hfull hpow (by positivity) (Nat.cast_nonneg m')

/-- Forms are compared as the numbers they stand for. -/
theorem Canonical.compares {m m' : ℕ} {e e' : ℤ} (h : Canonical m e) (h' : Canonical m' e') :
    ((compare e e').then (compare m m')).Compares ((m : ℚ) * 2 ^ e) (m' * 2 ^ e') := by
  rcases lt_trichotomy e e' with he | rfl | he
  · rw [compare_lt_iff_lt.2 he]
    exact h.lt_of_lt h' he
  · have hpos : (0 : ℚ) < 2 ^ e := by positivity
    rw [compare_eq_iff_eq.2 (rfl : e = e)]
    rcases lt_trichotomy m m' with hm | rfl | hm
    · rw [compare_lt_iff_lt.2 hm]
      exact mul_lt_mul_of_pos_right (by exact_mod_cast hm) hpos
    · rw [compare_eq_iff_eq.2 (rfl : m = m)]
      exact rfl
    · rw [compare_gt_iff_gt.2 hm]
      exact mul_lt_mul_of_pos_right (by exact_mod_cast hm) hpos
  · rw [compare_gt_iff_gt.2 he]
    exact h'.lt_of_lt h he

/-- Negative numbers are compared the other way round. -/
theorem swap_compares_neg {o : Ordering} (h : o.Compares p q) : o.swap.Compares (-p) (-q) := by
  cases o with
  | lt => exact neg_lt_neg h
  | eq => exact congrArg Neg.neg h
  | gt => exact neg_lt_neg h

/-- Doubles that stand for numbers are compared as these. -/
theorem Denotes.exists_compare (hx : Denotes x p) (hy : Denotes y q) :
    ∃ o, x.toModel.unpack.compare y.toModel.unpack = some o ∧ o.Compares p q := by
  have hpos : ∀ {m : ℕ} (e : ℤ), 0 < m → (0 : ℚ) < m * 2 ^ e := by
    intro m e hm
    positivity
  rcases hx.unpack_cases with ⟨s₁, hu₁, rfl⟩ | ⟨s₁, m₁, e₁, hm₁, hu₁, rfl, hc₁⟩ <;>
    rcases hy.unpack_cases with ⟨s₂, hu₂, rfl⟩ | ⟨s₂, m₂, e₂, hm₂, hu₂, rfl, hc₂⟩ <;>
    rw [hu₁, hu₂]
  · exact ⟨.eq, rfl, rfl⟩
  · cases s₂ with
    | negative => exact ⟨.gt, rfl, neg_neg_of_pos (hpos e₂ hm₂)⟩
    | positive => exact ⟨.lt, rfl, hpos e₂ hm₂⟩
  · cases s₁ with
    | negative => exact ⟨.lt, rfl, neg_neg_of_pos (hpos e₁ hm₁)⟩
    | positive => exact ⟨.gt, rfl, hpos e₁ hm₁⟩
  · cases s₁ <;> cases s₂
    · exact ⟨_, rfl, swap_compares_neg (hc₁.compares hc₂)⟩
    · exact ⟨.lt, rfl, (neg_neg_of_pos (hpos e₁ hm₁)).trans (hpos e₂ hm₂)⟩
    · exact ⟨.gt, rfl, (neg_neg_of_pos (hpos e₂ hm₂)).trans (hpos e₁ hm₁)⟩
    · exact ⟨_, rfl, hc₁.compares hc₂⟩

/-- One double is below another when its number is. -/
theorem Denotes.lt_iff (hx : Denotes x p) (hy : Denotes y q) : x < y ↔ p < q := by
  obtain ⟨o, ho, hcompares⟩ := hx.exists_compare hy
  change (decide ((x.toModel.unpack.compare y.toModel.unpack == some .lt) = true)) = true ↔ p < q
  rw [ho, decide_eq_true_iff, beq_iff_eq, Option.some.injEq]
  exact hcompares.eq_lt

/-- One double is at most another when its number is. -/
theorem Denotes.le_iff (hx : Denotes x p) (hy : Denotes y q) : x ≤ y ↔ p ≤ q := by
  obtain ⟨o, ho, hcompares⟩ := hx.exists_compare hy
  change (decide ((x.toModel.unpack.compare y.toModel.unpack).any (·.isLE) = true)) = true ↔ p ≤ q
  rw [ho, decide_eq_true_iff, ← hcompares.ne_gt]
  cases o <;> decide

/-! ## Other doubles -/

variable {sign : Sign}

/-- Every double is no number, an infinity, or stands for a number. -/
theorem nan_or_infinity_or_denotes (x : Float) :
    x = nan ∨ (∃ sign, x.toModel.unpack = .infinity sign) ∨ ∃ q, Denotes x q := by
  generalize hu : x.toModel.unpack = u
  cases u with
  | notANumber => exact .inl (eq_nan hu)
  | infinity sign => exact .inr (.inl ⟨sign, rfl⟩)
  | zero | finite => exact .inr (.inr ⟨_, congrArg number? hu⟩)

/-- Taking a double off what is no number. -/
theorem nan_sub (y : Float) : nan - y = nan := by
  change Float.ofModel
    (.pack (UnpackedFloat.sub .binary64 nan.toModel.unpack y.toModel.unpack)) = nan
  rw [show nan.toModel.unpack = .notANumber from rfl]
  rfl

/-- Dividing what is no number. -/
theorem nan_div (y : Float) : nan / y = nan := by
  change Float.ofModel
    (.pack (UnpackedFloat.div .binary64 nan.toModel.unpack y.toModel.unpack)) = nan
  rw [show nan.toModel.unpack = .notANumber from rfl]
  rfl

/-- Only the negative infinity is below a number. -/
theorem infinity_lt_iff (hx : x.toModel.unpack = .infinity sign) (hy : Denotes y q) :
    x < y ↔ sign = .negative := by
  change (decide ((x.toModel.unpack.compare y.toModel.unpack == some .lt) = true)) = true ↔ _
  rcases hy.unpack_cases with ⟨s, hu, rfl⟩ | ⟨s, m, e, hm, hu, rfl, -⟩ <;> rw [hx, hu] <;>
    cases sign
  · exact iff_of_true rfl rfl
  · exact iff_of_false Bool.false_ne_true nofun
  · exact iff_of_true rfl rfl
  · exact iff_of_false Bool.false_ne_true nofun

/-- Only the positive infinity is above a number. -/
theorem lt_infinity_iff (hx : x.toModel.unpack = .infinity sign) (hy : Denotes y q) :
    y < x ↔ sign = .positive := by
  change (decide ((y.toModel.unpack.compare x.toModel.unpack == some .lt) = true)) = true ↔ _
  rcases hy.unpack_cases with ⟨s, hu, rfl⟩ | ⟨s, m, e, hm, hu, rfl, -⟩ <;> rw [hx, hu] <;>
    cases sign
  · exact iff_of_false Bool.false_ne_true nofun
  · exact iff_of_true rfl rfl
  · exact iff_of_false (by cases s <;> exact Bool.false_ne_true) nofun
  · exact iff_of_true (by cases s <;> rfl) rfl

end Orthomosaic.Binary64
