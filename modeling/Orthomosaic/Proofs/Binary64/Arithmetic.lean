import Mathlib.Data.Nat.Log
import Mathlib.Order.Compare
import Orthomosaic.Proofs.Binary64.Rounding

/-!
# Arithmetic of doubles

`Denotes x q` says that a double stands for a number. The four operations give a double that
`Rounds` the exact result, as long as that is below the greatest power of two; the two comparisons
are those of the numbers. So a computation on doubles that stand for numbers is followed on
rationals, with `SameSide` for what is lost on the way.

What does not stand for a number is one of three doubles (`nan_or_infinity_or_denotes`), on which a
computation can simply be run.
-/

namespace Orthomosaic.Binary64

open Float.Model UnpackedFloat

/-- The double stands for the number. -/
def Denotes (x : Float) (q : ℚ) : Prop :=
  number? x.toModel.unpack = some q

/-- The double stands for a number that passes no multiple of `2 ^ (n - 53)` over. This is how
exact results below `2 ^ n` are rounded. -/
def Rounds (n : ℤ) (v : ℚ) (x : Float) : Prop :=
  ∃ r, Denotes x r ∧ SameSide (n - 53) v r

variable {x y : Float} {p q v : ℚ} {n : ℤ}

/-! ## The doubles that stand for numbers -/

/-- What a double that stands for a number is taken apart into. -/
theorem Denotes.unpack_cases (h : Denotes x q) :
    (∃ sign, x.toModel.unpack = .zero sign ∧ q = 0)
      ∨ ∃ sign m e hm, x.toModel.unpack = .finite sign m e hm ∧ q = signed sign (m * 2 ^ e)
        ∧ Canonical m e := by
  unfold Denotes at h
  generalize hu : x.toModel.unpack = u at h
  cases u with
  | infinity | notANumber => cases h
  | zero sign => exact .inl ⟨sign, rfl, (Option.some.inj h).symm⟩
  | finite sign m e hm =>
    exact .inr ⟨sign, m, e, hm, rfl, (Option.some.inj h).symm, canonical_of_unpack hu⟩

/-- A form that is packed stands for its number. -/
theorem denotes_finite (sign : Sign) {m : ℕ} {e : ℤ} (hm : 0 < m) (h : Canonical m e) :
    Denotes (.ofModel (.pack (.finite sign m e hm))) (signed sign (m * 2 ^ e)) := by
  unfold Denotes
  rw [unpack_pack_finite sign hm h]
  rfl

theorem denotes_zero (sign : Sign) : Denotes (.ofModel (.pack (.zero sign))) 0 := by
  unfold Denotes
  rw [unpack_pack_zero]
  rfl

theorem Denotes.rounds (h : Denotes x q) (n : ℤ) : Rounds n q x :=
  ⟨q, h, fun _ => ⟨id, id⟩⟩

/-- Rounding loses nothing of a whole number with at most 53 bits. -/
theorem Rounds.denotes_int {j : ℤ} (h : Rounds n j x) (hn : n ≤ 53) : Denotes x j := by
  obtain ⟨r, hr, hside⟩ := h
  rwa [hside.eq_int (by omega) rfl] at hr

/-! ## Rounding -/

/-- The leading bit of a number below a power of two. -/
theorem totalExponent_le {m : ℕ} {e : ℤ} (hm : m ≠ 0) (h : (m : ℚ) * 2 ^ e < 2 ^ n) :
    totalExponent m e ≤ n := by
  have hlog : (2 : ℚ) ^ m.log2 ≤ m := by exact_mod_cast Nat.log2_self_le hm
  have hpow : (2 : ℚ) ^ ((m.log2 : ℤ) + e) < 2 ^ n := by
    rw [zpow_add₀ (by norm_num), zpow_natCast]
    exact (mul_le_mul_of_nonneg_right hlog (by positivity)).trans_lt h
  have := (zpow_lt_zpow_iff_right₀ (by norm_num : (1 : ℚ) < 2)).1 hpow
  unfold totalExponent
  omega

/-- A number is rounded to the format. -/
theorem rounds_roundWithAccuracy (sign : Sign) {m : ℕ} {e : ℤ} {accuracy : Accuracy}
    (h : Describes (.ofMantissaAndAccuracy m accuracy) e v)
    (he : e ≤ max (totalExponent m e - 53) (-1074)) (hn : totalExponent m e ≤ n)
    (hn0 : -1021 ≤ n) (hn1 : n ≤ 1023) :
    Rounds n (signed sign v)
      (.ofModel (.pack (roundWithAccuracy .binary64 sign m e accuracy))) := by
  obtain ⟨r, hside, hnumber⟩ := exists_number_roundWithAccuracy (k := n - 53) sign h he (by omega)
    (by omega) (by omega)
  exact ⟨signed sign r, hnumber, hside.signed sign⟩

theorem decreaseExponent_snd (m : ℕ) (e t : ℤ) : (decreaseExponent m e t).2 = min e t := by
  unfold decreaseExponent
  dsimp only
  omega

/-- Lowering the exponent keeps the number. -/
theorem decreaseExponent_mul (m : ℕ) (e t : ℤ) :
    ((decreaseExponent m e t).1 : ℚ) * 2 ^ (decreaseExponent m e t).2 = m * 2 ^ e := by
  unfold decreaseExponent
  dsimp only
  generalize (e - t).toNat = k
  rw [Nat.shiftLeft_eq, zpow_sub₀ (by norm_num), zpow_natCast]
  push_cast
  field_simp

/-- Lowering the exponent to another keeps the number. -/
theorem decreaseExponent_mul_of_le (m : ℕ) {e t : ℤ} (h : t ≤ e) :
    ((decreaseExponent m e t).1 : ℚ) * 2 ^ t = m * 2 ^ e := by
  rw [← decreaseExponent_mul m e t, decreaseExponent_snd, min_eq_right h]

theorem log2_mul_two_pow {m : ℕ} (hm : m ≠ 0) (k : ℕ) : (m * 2 ^ k).log2 = m.log2 + k := by
  rw [Nat.log2_eq_iff (Nat.mul_ne_zero hm (by positivity)), pow_add, add_right_comm, pow_add]
  exact ⟨Nat.mul_le_mul_right _ (Nat.log2_self_le hm),
    Nat.mul_lt_mul_of_pos_right Nat.lt_log2_self (by positivity)⟩

/-- Lowering the exponent of a form does not move the leading bit. -/
theorem totalExponent_decreaseExponent {m : ℕ} (hm : m ≠ 0) (e t : ℤ) :
    totalExponent (decreaseExponent m e t).1 (decreaseExponent m e t).2 = totalExponent m e := by
  unfold totalExponent decreaseExponent
  dsimp only
  rw [Nat.shiftLeft_eq, log2_mul_two_pow hm]
  push_cast
  ring

/-- A zero is not rounded. -/
theorem round_zero (sign : Sign) (e : ℤ) : UnpackedFloat.round .binary64 sign 0 e = .zero sign := by
  have hshift : ∀ k : ℕ, (ExtendedMantissa.ofMantissaAndAccuracy 0 .exact >>> k)
      = ExtendedMantissa.ofMantissaAndAccuracy 0 .exact := by
    intro k
    change k.repeat ExtendedMantissa.shiftRightOne _ = _
    induction k with
    | zero => rfl
    | succ k ih => exact congrArg ExtendedMantissa.shiftRightOne ih
  unfold UnpackedFloat.round decreaseExponent roundWithAccuracy shiftToTargetExponent
    shiftToExponent
  dsimp only
  rw [Nat.zero_shiftLeft, hshift]
  exact dif_pos (congrArg ExtendedMantissa.mantissa (hshift _))

/-- Mantissa and exponent are rounded to the format. -/
theorem rounds_round (sign : Sign) {m : ℕ} {e : ℤ} (h : (m : ℚ) * 2 ^ e < 2 ^ n)
    (hn0 : -1021 ≤ n) (hn1 : n ≤ 1023) :
    Rounds n (signed sign (m * 2 ^ e))
      (.ofModel (.pack (UnpackedFloat.round .binary64 sign m e))) := by
  rcases eq_or_ne m 0 with rfl | hm
  · have hzero : signed sign ((0 : ℕ) * 2 ^ e) = 0 := by
      cases sign <;> simp [signed]
    rw [round_zero, hzero]
    exact (denotes_zero sign).rounds n
  · have htotal := totalExponent_decreaseExponent hm e
      (Format.binary64.targetExponent (totalExponent m e))
    unfold UnpackedFloat.round
    dsimp only
    rw [← decreaseExponent_mul m e (Format.binary64.targetExponent (totalExponent m e))]
    refine rounds_roundWithAccuracy sign (describes_exact _ _) ?_
      (htotal.trans_le (totalExponent_le hm h)) hn0 hn1
    rw [htotal, decreaseExponent_snd, targetExponent_eq]
    exact min_le_right _ _

/-- A number with a sign is rounded to the format. -/
theorem rounds_normalize {m e : ℤ} (zeroSign : Sign) (h : |(m : ℚ) * 2 ^ e| < 2 ^ n)
    (hn0 : -1021 ≤ n) (hn1 : n ≤ 1023) :
    Rounds n (m * 2 ^ e) (.ofModel (.pack (UnpackedFloat.normalize .binary64 m e zeroSign))) := by
  have hpos : (0 : ℚ) < 2 ^ e := by positivity
  rw [abs_mul, abs_of_pos hpos] at h
  unfold UnpackedFloat.normalize
  rcases lt_trichotomy m 0 with hm | rfl | hm
  · obtain ⟨k, rfl⟩ : ∃ k : ℕ, m = -k := ⟨(-m).toNat, by omega⟩
    have hcompare : compare (-(k : ℤ)) 0 = .lt := compare_lt_iff_lt.2 hm
    rw [hcompare]
    push_cast at h ⊢
    rw [abs_neg, abs_of_nonneg (Nat.cast_nonneg k)] at h
    have hround := rounds_round .negative h hn0 hn1
    rwa [neg_neg, Int.toNat_natCast, neg_mul]
  · rw [Int.cast_zero, zero_mul]
    exact (denotes_zero zeroSign).rounds n
  · obtain ⟨k, rfl⟩ : ∃ k : ℕ, m = k := ⟨m.toNat, by omega⟩
    have hcompare : compare (k : ℤ) 0 = .gt := compare_gt_iff_gt.2 hm
    rw [hcompare]
    push_cast at h ⊢
    rw [abs_of_nonneg (Nat.cast_nonneg k)] at h
    exact rounds_round .positive h hn0 hn1

/-! ## The four operations -/

theorem cast_apply (sign : Sign) (m : ℕ) : ((sign.apply m : ℤ) : ℚ) = signed sign m := by
  cases sign <;> simp [Sign.apply, signed]

theorem signed_mul (sign : Sign) (a c : ℚ) : signed sign (a * c) = signed sign a * c := by
  cases sign with
  | negative => exact (neg_mul a c).symm
  | positive => rfl

theorem signed_eq_apply_mul (sign : Sign) (m : ℕ) {e t : ℤ} (h : t ≤ e) :
    signed sign (m * 2 ^ e) = ((sign.apply (decreaseExponent m e t).1 : ℤ) : ℚ) * 2 ^ t := by
  rw [cast_apply, ← signed_mul, decreaseExponent_mul_of_le m h]

theorem signed_neg (sign : Sign) (a : ℚ) : signed (-sign) a = -signed sign a := by
  cases sign with
  | negative => exact (neg_neg a).symm
  | positive => rfl

/-- The sum of two doubles. -/
theorem Denotes.add (hx : Denotes x p) (hy : Denotes y q) (h : |p + q| < 2 ^ n)
    (hn0 : -1021 ≤ n) (hn1 : n ≤ 1023) : Rounds n (p + q) (x + y) := by
  change Rounds n (p + q)
    (.ofModel (.pack (UnpackedFloat.add .binary64 x.toModel.unpack y.toModel.unpack)))
  rcases hx.unpack_cases with ⟨s₁, hu₁, rfl⟩ | ⟨s₁, m₁, e₁, hm₁, hu₁, rfl, hc₁⟩ <;>
    rcases hy.unpack_cases with ⟨s₂, hu₂, rfl⟩ | ⟨s₂, m₂, e₂, hm₂, hu₂, rfl, hc₂⟩ <;>
    rw [hu₁, hu₂]
  · rw [add_zero]
    cases s₁ <;> cases s₂ <;> exact (denotes_zero _).rounds n
  · rw [zero_add]
    exact (denotes_finite s₂ hm₂ hc₂).rounds n
  · rw [add_zero]
    exact (denotes_finite s₁ hm₁ hc₁).rounds n
  · have hsum : signed s₁ (m₁ * 2 ^ e₁) + signed s₂ (m₂ * 2 ^ e₂)
        = ((s₁.apply (decreaseExponent m₁ e₁ (min e₁ e₂)).1
            + s₂.apply (decreaseExponent m₂ e₂ (min e₁ e₂)).1 : ℤ) : ℚ) * 2 ^ min e₁ e₂ := by
      rw [Int.cast_add, add_mul, ← signed_eq_apply_mul s₁ m₁ (min_le_left _ _),
        ← signed_eq_apply_mul s₂ m₂ (min_le_right _ _)]
    rw [hsum] at h ⊢
    exact rounds_normalize .positive h hn0 hn1

/-- The opposite of a double. -/
theorem Denotes.neg (hx : Denotes x p) : Denotes (-x) (-p) := by
  change Denotes (.ofModel (.pack x.toModel.unpack.neg)) (-p)
  rcases hx.unpack_cases with ⟨s, hu, rfl⟩ | ⟨s, m, e, hm, hu, rfl, hc⟩ <;> rw [hu]
  · rw [neg_zero]
    exact denotes_zero (-s)
  · rw [← signed_neg]
    exact denotes_finite (-s) hm hc

/-- The difference of two doubles. -/
theorem Denotes.sub (hx : Denotes x p) (hy : Denotes y q) (h : |p - q| < 2 ^ n)
    (hn0 : -1021 ≤ n) (hn1 : n ≤ 1023) : Rounds n (p - q) (x - y) := by
  change Rounds n (p - q)
    (.ofModel (.pack (UnpackedFloat.sub .binary64 x.toModel.unpack y.toModel.unpack)))
  rcases hx.unpack_cases with ⟨s₁, hu₁, rfl⟩ | ⟨s₁, m₁, e₁, hm₁, hu₁, rfl, hc₁⟩ <;>
    rcases hy.unpack_cases with ⟨s₂, hu₂, rfl⟩ | ⟨s₂, m₂, e₂, hm₂, hu₂, rfl, hc₂⟩ <;>
    rw [hu₁, hu₂]
  · rw [sub_zero]
    cases s₁ <;> cases s₂ <;> exact (denotes_zero _).rounds n
  · rw [zero_sub, ← signed_neg]
    exact (denotes_finite (-s₂) hm₂ hc₂).rounds n
  · rw [sub_zero]
    exact (denotes_finite s₁ hm₁ hc₁).rounds n
  · have hdiff : signed s₁ (m₁ * 2 ^ e₁) - signed s₂ (m₂ * 2 ^ e₂)
        = ((s₁.apply (decreaseExponent m₁ e₁ (min e₁ e₂)).1
            - s₂.apply (decreaseExponent m₂ e₂ (min e₁ e₂)).1 : ℤ) : ℚ) * 2 ^ min e₁ e₂ := by
      rw [Int.cast_sub, sub_mul, ← signed_eq_apply_mul s₁ m₁ (min_le_left _ _),
        ← signed_eq_apply_mul s₂ m₂ (min_le_right _ _)]
    rw [hdiff] at h ⊢
    exact rounds_normalize .positive h hn0 hn1

/-- The sign of a product. -/
theorem signed_mul_signed (s₁ s₂ : Sign) (a c : ℚ) :
    signed s₁ a * signed s₂ c = signed (s₁ * s₂) (a * c) := by
  cases s₁ <;> cases s₂
  · exact neg_mul_neg a c
  · exact neg_mul a c
  · exact mul_neg a c
  · rfl

theorem abs_signed (sign : Sign) (a : ℚ) : |signed sign a| = |a| := by
  cases sign with
  | negative => exact abs_neg a
  | positive => rfl

/-- The product of two doubles. -/
theorem Denotes.mul (hx : Denotes x p) (hy : Denotes y q) (h : |p * q| < 2 ^ n)
    (hn0 : -1021 ≤ n) (hn1 : n ≤ 1023) : Rounds n (p * q) (x * y) := by
  change Rounds n (p * q)
    (.ofModel (.pack (UnpackedFloat.mul .binary64 x.toModel.unpack y.toModel.unpack)))
  rcases hx.unpack_cases with ⟨s₁, hu₁, rfl⟩ | ⟨s₁, m₁, e₁, hm₁, hu₁, rfl, hc₁⟩ <;>
    rcases hy.unpack_cases with ⟨s₂, hu₂, rfl⟩ | ⟨s₂, m₂, e₂, hm₂, hu₂, rfl, hc₂⟩ <;>
    rw [hu₁, hu₂]
  · rw [mul_zero]
    exact (denotes_zero _).rounds n
  · rw [zero_mul]
    exact (denotes_zero _).rounds n
  · rw [mul_zero]
    exact (denotes_zero _).rounds n
  · have hprod : (m₁ : ℚ) * 2 ^ e₁ * (m₂ * 2 ^ e₂) = (m₁ * m₂ : ℕ) * 2 ^ (e₁ + e₂) := by
      rw [zpow_add₀ (by norm_num)]
      push_cast
      ring
    have hne : m₁ * m₂ ≠ 0 := (Nat.mul_pos hm₁ hm₂).ne'
    rw [signed_mul_signed, abs_signed, abs_of_nonneg (by positivity), hprod] at h
    rw [signed_mul_signed, hprod]
    refine rounds_roundWithAccuracy (s₁ * s₂) (describes_exact _ _) ?_ (totalExponent_le hne h)
      hn0 hn1
    -- either both are below the normal numbers, or one of them brings 53 bits
    unfold totalExponent
    rcases hc₁.normal with hfull | hleast
    · have := (Nat.le_log2 hne).2 (hfull.trans (Nat.le_mul_of_pos_right m₁ hm₂))
      omega
    · rcases hc₂.normal with hfull | hleast'
      · have := (Nat.le_log2 hne).2 (hfull.trans (Nat.le_mul_of_pos_left m₂ hm₁))
        omega
      · omega

/-- The exact value of a quotient of mantissas with a remainder. -/
theorem quotient_add_fraction (m d : ℕ) (hd : 0 < d) :
    ((m / d : ℕ) : ℚ) + ((m % d : ℕ) : ℚ) / d = m / d := by
  have hd' : (d : ℚ) ≠ 0 := by exact_mod_cast hd.ne'
  have hsplit : (m : ℚ) = d * (m / d : ℕ) + (m % d : ℕ) := by
    exact_mod_cast (Nat.div_add_mod m d).symm
  rw [eq_div_iff hd', add_mul, div_mul_cancel₀ _ hd']
  linarith

/-- The quotient of mantissas has enough bits for the format. -/
theorem le_quotient {m₁ m₂ k : ℕ} (hm₁ : 0 < m₁) (hm₂ : 0 < m₂)
    (hk : m₂.log2 + 53 ≤ m₁.log2 + k) : 2 ^ 52 ≤ m₁ * 2 ^ k / m₂ := by
  rw [Nat.le_div_iff_mul_le hm₂]
  calc
    2 ^ 52 * m₂ ≤ 2 ^ 52 * 2 ^ (m₂.log2 + 1) := Nat.mul_le_mul_left _ Nat.lt_log2_self.le
    _ = 2 ^ (m₂.log2 + 53) := by rw [← pow_add]; congr 1; omega
    _ ≤ 2 ^ (m₁.log2 + k) := Nat.pow_le_pow_right (by norm_num) hk
    _ = 2 ^ m₁.log2 * 2 ^ k := pow_add _ _ _
    _ ≤ m₁ * 2 ^ k := Nat.mul_le_mul_right _ (Nat.log2_self_le hm₁.ne')

/-- The sign of a quotient. -/
theorem signed_div_signed (s₁ s₂ : Sign) (a c : ℚ) :
    signed s₁ a / signed s₂ c = signed (s₁ / s₂) (a / c) := by
  cases s₁ <;> cases s₂
  · exact neg_div_neg_eq a c
  · exact neg_div c a
  · exact div_neg a
  · rfl

/-- The quotient of two doubles, of which the second is not zero. -/
theorem Denotes.div (hx : Denotes x p) (hy : Denotes y q) (hq : q ≠ 0) (h : |p / q| < 2 ^ n)
    (hn0 : -1021 ≤ n) (hn1 : n ≤ 1023) : Rounds n (p / q) (x / y) := by
  change Rounds n (p / q)
    (.ofModel (.pack (UnpackedFloat.div .binary64 x.toModel.unpack y.toModel.unpack)))
  obtain ⟨s₂, m₂, e₂, hm₂, hu₂, rfl, hc₂⟩ := hy.unpack_cases.resolve_left fun ⟨_, _, h0⟩ => hq h0
  rcases hx.unpack_cases with ⟨s₁, hu₁, rfl⟩ | ⟨s₁, m₁, e₁, hm₁, hu₁, rfl, hc₁⟩ <;> rw [hu₁, hu₂]
  · rw [zero_div]
    exact (denotes_zero _).rounds n
  · unfold UnpackedFloat.div divCore
    dsimp only
    rw [targetExponent_eq]
    generalize ht : min (e₁ - e₂) (max (totalExponent m₁ e₁ - totalExponent m₂ e₂ - 53) (-1074)) = t
    obtain ⟨k, hk⟩ := Int.le.dest (show t ≤ e₁ - e₂ by omega)
    have hshift : (e₁ - e₂ - t).toNat = k := by omega
    rw [hshift, Nat.shiftLeft_eq]
    have hvalue : (m₁ : ℚ) * 2 ^ e₁ / (m₂ * 2 ^ e₂)
        = (((m₁ * 2 ^ k / m₂ : ℕ) : ℚ) + ((m₁ * 2 ^ k % m₂ : ℕ) : ℚ) / m₂) * 2 ^ t := by
      have hexp : e₁ = t + k + e₂ := by omega
      rw [quotient_add_fraction _ _ hm₂, hexp, zpow_add₀ (by norm_num), zpow_add₀ (by norm_num)]
      push_cast
      rw [zpow_natCast]
      field_simp
    have hdesc := describes_fraction (m₁ * 2 ^ k / m₂) (Nat.mod_lt (m₁ * 2 ^ k) hm₂) t
    have henough : t ≤ -1074 ∨ 2 ^ 52 ≤ m₁ * 2 ^ k / m₂ := by
      rcases le_or_gt t (-1074) with hleast | hleast
      · exact .inl hleast
      · refine .inr (le_quotient hm₁ hm₂ ?_)
        unfold totalExponent at ht
        omega
    rw [← hvalue] at hdesc
    rw [signed_div_signed, abs_signed, abs_of_nonneg (by positivity)] at h
    rw [signed_div_signed]
    generalize m₁ * 2 ^ k / m₂ = m at *
    have hmant := hdesc.le
    rw [mantissa_ofMantissaAndAccuracy] at hmant
    refine rounds_roundWithAccuracy (s₁ / s₂) hdesc ?_ ?_ hn0 hn1
    · rcases henough with hleast | hfull
      · exact hleast.trans (le_max_right _ _)
      · have := (Nat.le_log2 (Nat.pos_iff_ne_zero.1 (by omega))).2 hfull
        unfold totalExponent
        omega
    · rcases eq_or_ne m 0 with rfl | hm
      · have : totalExponent 0 t = 1 + t := by
          unfold totalExponent
          rw [show Nat.log2 0 = 0 from rfl]
          omega
        omega
      · exact totalExponent_le hm (hmant.trans_lt h)

/-- The magnitude of a double. -/
theorem Denotes.abs (hx : Denotes x p) : Denotes x.abs |p| := by
  change Denotes (.ofModel (.pack x.toModel.unpack.abs)) |p|
  rcases hx.unpack_cases with ⟨s, hu, rfl⟩ | ⟨s, m, e, hm, hu, rfl, hc⟩ <;> rw [hu]
  · rw [abs_zero]
    exact denotes_zero .positive
  · rw [abs_signed, abs_of_nonneg (by positivity)]
    exact denotes_finite .positive hm hc

end Orthomosaic.Binary64
