import Orthomosaic.Decimal.Digits
import Orthomosaic.Proofs.Binary64.Order

/-!
# Whole numbers as doubles

A whole number that is too long for the mantissa is rounded to the nearest multiple of the last place
that is kept, and of two equally near multiples to the even one; beyond the range of the format it
becomes infinity. So much is needed where it matters which of its two neighbours a number goes to, and
`SameSide`, which only says that neither of them is passed over, is not enough.

The core is `Halves`: after any number of dropped bits, the two residual bits say how what was dropped
compares with half of the last place. From there `becomes_round` follows the mantissa through the carry
and the packing, `becomes_ofNat` reads off what a whole number is converted to, and `Denotes.becomes_mul`
says that a power of two only moves the exponent.
-/

namespace Orthomosaic

/-! ## The nearest whole number -/

namespace Decimal

variable {n : ℕ}

theorem roundEven_one (n : ℕ) : roundEven n 1 = n := by
  simp [roundEven, Nat.mod_one]

/-- A factor of both numbers does not change their ratio. -/
theorem roundEven_mul (num : ℕ) {den c : ℕ} (hc : 0 < c) :
    roundEven (num * c) (den * c) = roundEven num den := by
  have hcompare : ∀ a b : ℕ, a * c < b * c ↔ a < b := fun a b => Nat.mul_lt_mul_right hc
  simp only [roundEven, Nat.mul_div_mul_right num den hc, Nat.mul_mod_mul_right, ← mul_assoc,
    hcompare]

/-- A whole number above a ratio is not passed over. -/
theorem roundEven_le {num den : ℕ} (h : num < n * den) : roundEven num den ≤ n := by
  have hdiv : num / den < n := Nat.div_lt_of_lt_mul (by rwa [mul_comm])
  unfold roundEven
  dsimp only
  split_ifs <;> omega

/-- A whole number below a ratio is not passed over. -/
theorem le_roundEven {num den : ℕ} (hden : 0 < den) (h : n * den ≤ num) :
    n ≤ roundEven num den := by
  have hdiv : n ≤ num / den := (Nat.le_div_iff_mul_le hden).2 h
  unfold roundEven
  dsimp only
  split_ifs <;> omega

end Decimal

namespace Binary64

open Float.Model UnpackedFloat
open Decimal

variable {x y : Float} {q : ℚ} {m n k : ℕ} {e : ℤ}

/-! ## The residual bits -/

/-- What is known of a mantissa of which `k` bits have been dropped: the residual bits say how these
compare with half of the last place that is left. -/
structure Halves (em : ExtendedMantissa) (m k : ℕ) : Prop where
  mantissa : em.mantissa = m / 2 ^ k
  roundBit : em.roundBit = true ↔ 2 ^ k ≤ 2 * (m % 2 ^ k)
  stickyBit : em.stickyBit = true ↔ m % 2 ^ k ≠ 0 ∧ 2 * (m % 2 ^ k) ≠ 2 ^ k

theorem halves_exact (m : ℕ) : Halves (.ofMantissaAndAccuracy m .exact) m 0 := by
  constructor <;> simp [ExtendedMantissa.ofMantissaAndAccuracy, Nat.mod_one]

/-- Dropping one more bit. -/
theorem Halves.shiftRightOne {em : ExtendedMantissa} (h : Halves em m k) :
    Halves em.shiftRightOne m (k + 1) := by
  have hpos : 0 < 2 ^ k := Nat.two_pow_pos k
  have hlt : m % 2 ^ k < 2 ^ k := Nat.mod_lt m hpos
  -- the bit that is dropped now stands in front of those dropped before
  have hrest : m % 2 ^ (k + 1) = m % 2 ^ k + 2 ^ k * (m / 2 ^ k % 2) := by
    rw [pow_succ, Nat.mod_mul]
  have hbit : m / 2 ^ k % 2 = 0 ∨ m / 2 ^ k % 2 = 1 := Nat.mod_two_eq_zero_or_one _
  constructor
  · simp [ExtendedMantissa.shiftRightOne, h.mantissa, pow_succ, Nat.div_div_eq_div_mul]
  · rw [hrest, pow_succ]
    simp only [ExtendedMantissa.shiftRightOne, h.mantissa, bne_iff_ne]
    rcases hbit with hbit | hbit <;> rw [hbit] <;> omega
  · rw [hrest, pow_succ]
    simp only [ExtendedMantissa.shiftRightOne, Bool.or_eq_true, h.roundBit, h.stickyBit]
    rcases hbit with hbit | hbit <;> rw [hbit] <;> omega

theorem halves_shiftRight (m k : ℕ) :
    Halves (ExtendedMantissa.ofMantissaAndAccuracy m .exact >>> k) m k := by
  change Halves (k.repeat ExtendedMantissa.shiftRightOne _) m k
  induction k with
  | zero => exact halves_exact m
  | succ k ih => exact ih.shiftRightOne

/-- Rounding takes the nearest mantissa. -/
theorem Halves.roundedMantissa_eq {em : ExtendedMantissa} (h : Halves em m k) :
    em.roundedMantissa = roundEven m (2 ^ k) := by
  obtain ⟨hm, hround, hsticky⟩ := h
  obtain ⟨q, round, sticky⟩ := em
  subst hm
  have hpos : 0 < 2 ^ k := Nat.two_pow_pos k
  have hlt : m % 2 ^ k < 2 ^ k := Nat.mod_lt m hpos
  dsimp only at hround hsticky
  unfold roundEven
  dsimp only
  cases round <;> cases sticky <;>
    simp only [ExtendedMantissa.roundedMantissa, ExtendedMantissa.accuracy,
      Accuracy.roundToNearestEven, true_iff, Bool.false_eq_true, false_iff] at hround hsticky ⊢ <;>
    split_ifs <;> omega

/-! ## Numbers with 53 bits -/

/-- The double that a positive number with at most 53 bits becomes: it stands for the number, unless
that is beyond the range of the format. -/
structure Becomes (x : Float) (q : ℚ) : Prop where
  denotes : q < 2 ^ 1024 → Denotes x q
  infinity : 2 ^ 1024 ≤ q → x.toModel.unpack = .infinity .positive

/-- A mantissa with 53 bits is packed with its exponent, if there is room for that. -/
theorem becomes_pack (hm : 0 < m) (hfull : 2 ^ 52 ≤ m) (hlt : m < 2 ^ 53) (he : -1074 ≤ e) :
    Becomes (.ofModel (.pack (.finite .positive m e hm))) (m * 2 ^ e) := by
  have hfull' : (2 : ℚ) ^ 52 ≤ m := by exact_mod_cast hfull
  have hlt' : (m : ℚ) < 2 ^ 53 := by exact_mod_cast hlt
  by_cases hrange : e ≤ 971
  · have hless : (m : ℚ) * 2 ^ e < 2 ^ 1024 := by
      calc
        (m : ℚ) * 2 ^ e < 2 ^ 53 * 2 ^ e := mul_lt_mul_of_pos_right hlt' (by positivity)
        _ ≤ 2 ^ 53 * 2 ^ (971 : ℤ) :=
          mul_le_mul_of_nonneg_left (zpow_le_zpow_right₀ (by norm_num) hrange) (by positivity)
        _ = 2 ^ 1024 := by rw [zpow_ofNat, ← pow_add]
    exact ⟨fun _ => denotes_finite .positive hm ⟨hlt, he, hrange, .inl hfull⟩,
      fun h => absurd hless h.not_gt⟩
  · have hbeyond : (2 : ℚ) ^ 1024 ≤ m * 2 ^ e := by
      calc
        (2 : ℚ) ^ 1024 = 2 ^ 52 * 2 ^ (972 : ℤ) := by rw [zpow_ofNat, ← pow_add]
        _ ≤ 2 ^ 52 * 2 ^ e :=
          mul_le_mul_of_nonneg_left (zpow_le_zpow_right₀ (by norm_num) (by omega)) (by positivity)
        _ ≤ m * 2 ^ e := mul_le_mul_of_nonneg_right hfull' (by positivity)
    refine ⟨fun h => absurd h hbeyond.not_gt, fun _ => ?_⟩
    obtain ⟨-, -, hbias⟩ := binary64_sizes
    have hpack : UnpackedFloat.pack .binary64 (.finite .positive m e hm)
        = packedInfinity .binary64 .positive := by
      unfold UnpackedFloat.pack
      dsimp only
      rw [hbias]
      refine if_pos ?_
      change 2048 ≤ (e + (1023 : ℕ) + (52 : ℕ)).toNat + 1
      omega
    change UnpackedFloat.unpack .binary64
      (UnpackedFloat.pack .binary64 (.finite .positive m e hm)) = _
    rw [hpack]
    rfl

/-- A mantissa with `k` bits more than the format has is rounded to the nearest that fits. -/
theorem becomes_round (hlog : m.log2 = 52 + k) (he : -1074 < e + k) :
    Becomes (.ofModel (.pack (roundWithAccuracy .binary64 .positive m e .exact)))
      (roundEven m (2 ^ k) * 2 ^ (e + k)) := by
  have hm : m ≠ 0 := by
    rintro rfl
    rw [show Nat.log2 0 = 0 from rfl] at hlog
    omega
  have hlow : 2 ^ 52 * 2 ^ k ≤ m := by
    rw [← pow_add, ← hlog]
    exact Nat.log2_self_le hm
  have hhigh : m < 2 ^ 53 * 2 ^ k := by
    have hlt : m < 2 ^ (m.log2 + 1) := Nat.lt_log2_self
    rwa [hlog, show 52 + k + 1 = 53 + k from by omega, pow_add] at hlt
  have hq0 : 2 ^ 52 ≤ roundEven m (2 ^ k) := le_roundEven (Nat.two_pow_pos k) hlow
  have hq1 : roundEven m (2 ^ k) ≤ 2 ^ 53 := roundEven_le hhigh
  have hfirst : shiftToTargetExponent .binary64 m e .exact
      = (ExtendedMantissa.ofMantissaAndAccuracy m .exact >>> k, e + k) := by
    have hshift : (max (totalExponent m e - 53) (-1074) - e).toNat = k := by
      unfold totalExponent
      omega
    unfold shiftToTargetExponent shiftToExponent
    dsimp only
    rw [targetExponent_eq, hshift]
  have hround := (halves_shiftRight m k).roundedMantissa_eq
  obtain ⟨m', e', hm', he', hvalue, hlt, hle, -, hnormal⟩ := exists_shift_carry hq1 he.le
    (.inl hq0)
  have hpos : 0 < m' := by
    rcases Nat.eq_zero_or_pos m' with rfl | hpos
    · have hq : (0 : ℚ) < roundEven m (2 ^ k) := by exact_mod_cast (by omega)
      rw [Nat.cast_zero, zero_mul] at hvalue
      exact absurd hvalue (by positivity)
    · exact hpos
  have hresult : roundWithAccuracy .binary64 .positive m e .exact
      = .finite .positive m' e' hpos := by
    unfold roundWithAccuracy
    rw [hfirst]
    dsimp only
    rw [hround, dif_neg (by rw [hm']; exact hpos.ne')]
    exact finite_congr .positive _ hpos hm' he'
  rw [hresult, ← hvalue]
  exact becomes_pack hpos (hnormal.resolve_right (by omega)) hlt (by omega)

/-! ## Conversion and powers of two -/

/-- A whole number is rounded once. -/
theorem ofScientific_zero (hn : n ≠ 0) :
    UnpackedFloat.ofScientific .binary64 n 0
      = roundWithAccuracy .binary64 .positive (n * 2 ^ 53) (-53) .exact := by
  obtain ⟨hbits, -, -⟩ := binary64_sizes
  have hexponent : ¬ (0 : ℤ) < -((2 : ℤ) ^ Format.binary64.exponentBits + n.log2) := by
    have : (0 : ℤ) ≤ (2 : ℤ) ^ Format.binary64.exponentBits + n.log2 := by positivity
    omega
  unfold UnpackedFloat.ofScientific
  rw [dif_neg hn, if_neg (by decide), if_neg hexponent, if_pos le_rfl]
  dsimp only [UnpackedFloat.mul]
  rw [hbits, Nat.shiftLeft_eq, Int.toNat_zero, pow_zero, mul_one, add_zero]
  rfl

/-- A whole number with `k` bits more than the mantissa becomes the nearest multiple of `2 ^ k`. -/
theorem becomes_ofNat (hlog : n.log2 = 52 + k) (hk : 0 < k) :
    Becomes (Float.ofNat n) (roundEven n (2 ^ k) * 2 ^ k) := by
  have hn : n ≠ 0 := by
    rintro rfl
    rw [show Nat.log2 0 = 0 from rfl] at hlog
    omega
  have hlarge : ¬ n < 2 ^ 53 := by
    intro hlt
    have := (Nat.log2_lt hn).2 hlt
    omega
  have hmul : (n * 2 ^ 53).log2 = 52 + (k + 53) := by
    rw [log2_mul_two_pow hn, hlog, add_assoc]
  have hround := becomes_round (e := -53) hmul (by push_cast; omega)
  rw [pow_add, roundEven_mul n (Nat.two_pow_pos 53),
    show -53 + ((k + 53 : ℕ) : ℤ) = k from by push_cast; ring, zpow_natCast] at hround
  have hslow : Float.ofNat n = .ofModel (.pack (UnpackedFloat.ofScientific .binary64 n 0)) :=
    dif_neg fun h => hlarge h.1
  rw [hslow, ofScientific_zero hn]
  exact hround

/-- Multiplying by a power of two changes the exponent only. -/
theorem Denotes.becomes_mul {j : ℤ} {hpos : 0 < 2 ^ 52} (hx : Denotes x q) (hq : 1 ≤ q) (hj : 0 ≤ j)
    (hy : y.toModel.unpack = .finite .positive (2 ^ 52) (j - 52) hpos) :
    Becomes (x * y) (q * 2 ^ j) := by
  rcases hx.unpack_cases with ⟨s, -, rfl⟩ | ⟨s, m, e, hm, hu, rfl, hc⟩
  · exact absurd hq (by norm_num)
  obtain rfl : s = .positive := by
    have hvalue : (0 : ℚ) < m * 2 ^ e := by positivity
    cases s with
    | positive => rfl
    | negative => exact absurd (hq.trans_lt (neg_neg_of_pos hvalue)) (by norm_num)
  change (1 : ℚ) ≤ m * 2 ^ e at hq
  have he : -53 < e := by
    by_contra hle
    have hlt : (m : ℚ) < 2 ^ 53 := by exact_mod_cast hc.m_lt
    have hpow : (2 : ℚ) ^ e ≤ 2 ^ (-53 : ℤ) := zpow_le_zpow_right₀ (by norm_num) (not_lt.1 hle)
    have hless : (m : ℚ) * 2 ^ e < 1 := by
      calc
        (m : ℚ) * 2 ^ e ≤ m * 2 ^ (-53 : ℤ) := mul_le_mul_of_nonneg_left hpow (Nat.cast_nonneg m)
        _ < 2 ^ 53 * 2 ^ (-53 : ℤ) := mul_lt_mul_of_pos_right hlt (by positivity)
        _ = 1 := by norm_num
    exact hless.not_ge hq
  have hfull : 2 ^ 52 ≤ m := hc.normal.resolve_right (by omega)
  have hlog : (m * 2 ^ 52).log2 = 52 + 52 := by
    rw [log2_mul_two_pow hm.ne', (Nat.log2_eq_iff hm.ne').2 ⟨hfull, hc.m_lt⟩]
  have hround := becomes_round (e := e + (j - 52)) hlog (by push_cast; omega)
  have hexact : roundEven (m * 2 ^ 52) (2 ^ 52) = m := by
    rw [← one_mul (2 ^ 52), ← mul_assoc, mul_one, roundEven_mul m (Nat.two_pow_pos 52),
      roundEven_one]
  rw [hexact, show e + (j - 52) + ((52 : ℕ) : ℤ) = e + j from by push_cast; ring,
    zpow_add₀ (by norm_num), ← mul_assoc] at hround
  have hproduct : x * y = .ofModel (.pack (roundWithAccuracy .binary64 .positive (m * 2 ^ 52)
      (e + (j - 52)) .exact)) := by
    change Float.ofModel
      (.pack (UnpackedFloat.mul .binary64 x.toModel.unpack y.toModel.unpack)) = _
    rw [hu, hy]
    rfl
  rw [hproduct]
  exact hround

end Binary64

end Orthomosaic
