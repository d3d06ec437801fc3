import Mathlib.Algebra.Order.Field.Power
import Mathlib.Data.Rat.Floor
import Mathlib.Tactic.FieldSimp
import Mathlib.Tactic.Linarith
import Mathlib.Tactic.NormNum
import Mathlib.Tactic.Positivity
import Mathlib.Tactic.Ring
import Orthomosaic.Proofs.Binary64.Packing

/-!
# Rounding

An operation on doubles rounds its exact result to one of the two multiples of a power of two around
it. All that later proofs need of this is `SameSide`: no multiple of that power is passed over, so
an exact result between two such multiples is rounded to a number between them, and one that is such
a multiple is not changed.

The core is `exists_number_roundWithAccuracy`. Rounding drops bits one at a time and remembers of
them what `Describes` says, which is a statement on the exact result that each step keeps.
-/

namespace Orthomosaic.Binary64

open Float.Model UnpackedFloat

/-! ## Sides of a grid -/

/-- A number that lies on the same side as another of every multiple of `2 ^ k`. -/
def SameSide (k : ℤ) (v r : ℚ) : Prop :=
  ∀ j : ℤ, (v ≤ j * 2 ^ k → r ≤ j * 2 ^ k) ∧ (j * 2 ^ k ≤ v → j * 2 ^ k ≤ r)

namespace SameSide

variable {k k' : ℤ} {v r : ℚ}

/-- Changing both signs. -/
theorem neg (h : SameSide k v r) : SameSide k (-v) (-r) := by
  intro j
  obtain ⟨hle, hge⟩ := h (-j)
  push_cast at hle hge
  constructor
  · intro hv
    linarith [hge (by linarith)]
  · intro hv
    linarith [hle (by linarith)]

/-- Multiples of a greater power of two are multiples of a smaller one. -/
theorem mono (h : SameSide k v r) (hk : k ≤ k') : SameSide k' v r := by
  intro j
  obtain ⟨n, rfl⟩ := Int.le.dest hk
  have hpow : (j : ℚ) * 2 ^ (k + n) = (j * 2 ^ n : ℤ) * 2 ^ k := by
    rw [zpow_add₀ (by norm_num)]
    push_cast
    rw [zpow_natCast]
    ring
  rw [hpow]
  exact h (j * 2 ^ n)

/-- Whole numbers are multiples of the powers up to one. -/
theorem exists_mul_eq (hk : k ≤ 0) (n : ℤ) : ∃ j : ℤ, (j : ℚ) * 2 ^ k = n := by
  obtain ⟨i, hi⟩ := Int.eq_ofNat_of_zero_le (neg_nonneg.2 hk)
  refine ⟨n * 2 ^ i, ?_⟩
  obtain rfl : k = -(i : ℤ) := by omega
  push_cast
  rw [zpow_neg, zpow_natCast]
  field_simp

/-- A whole number is not passed over from above. -/
theorem int_le (h : SameSide k v r) (hk : k ≤ 0) {n : ℤ} (hn : (n : ℚ) ≤ v) : (n : ℚ) ≤ r := by
  obtain ⟨j, hj⟩ := exists_mul_eq hk n
  rw [← hj] at hn ⊢
  exact (h j).2 hn

theorem le_int (h : SameSide k v r) (hk : k ≤ 0) {n : ℤ} (hn : v ≤ n) : r ≤ n := by
  obtain ⟨j, hj⟩ := exists_mul_eq hk n
  rw [← hj] at hn ⊢
  exact (h j).1 hn

theorem eq_int (h : SameSide k v r) (hk : k ≤ 0) {n : ℤ} (hn : v = n) : r = n :=
  le_antisymm (h.le_int hk hn.le) (h.int_le hk hn.ge)

end SameSide

/-! ## Numbers -/

/-- A number with a sign. -/
def signed (sign : Sign) (q : ℚ) : ℚ :=
  match sign with
  | .negative => -q
  | .positive => q

/-- The number that an unpacked double stands for, if it stands for one. -/
def number? : UnpackedFloat → Option ℚ
  | .zero _ => some 0
  | .finite sign m e _ => some (signed sign (m * 2 ^ e))
  | .infinity _ | .notANumber => none

/-- The sign does not matter for the sides of multiples. -/
theorem SameSide.signed {k : ℤ} {v r : ℚ} (h : SameSide k v r) (sign : Sign) :
    SameSide k (signed sign v) (signed sign r) := by
  cases sign with
  | negative => exact h.neg
  | positive => exact h

/-! ## Dropping bits -/

/-- What is known of a number when its bits below `2 ^ e` are dropped: the whole part, and that the
two residual bits are clear if nothing was dropped. -/
structure Describes (em : ExtendedMantissa) (e : ℤ) (v : ℚ) : Prop where
  le : (em.mantissa : ℚ) * 2 ^ e ≤ v
  lt : v < ((em.mantissa : ℚ) + 1) * 2 ^ e
  clear : v = em.mantissa * 2 ^ e → em.roundBit = false ∧ em.stickyBit = false

/-- Nothing is dropped of a mantissa. -/
theorem describes_exact (m : ℕ) (e : ℤ) :
    Describes (.ofMantissaAndAccuracy m .exact) e (m * 2 ^ e) := by
  have hpos : (0 : ℚ) < 2 ^ e := by positivity
  refine ⟨le_rfl, ?_, fun _ => ⟨rfl, rfl⟩⟩
  change (m : ℚ) * 2 ^ e < ((m : ℚ) + 1) * 2 ^ e
  linarith

/-- The remainder of a division is dropped of the quotient. -/
theorem describes_fraction (m : ℕ) {num den : ℕ} (h : num < den) (e : ℤ) :
    Describes (.ofMantissaAndAccuracy m (accuracyOfFraction num den)) e
      (((m : ℚ) + num / den) * 2 ^ e) := by
  have hpos : (0 : ℚ) < 2 ^ e := by positivity
  have hden : (0 : ℚ) < den := by exact_mod_cast Nat.zero_lt_of_lt h
  have hnum : (num : ℚ) / den < 1 := by
    rw [div_lt_one hden]
    exact_mod_cast h
  have hnum' : (0 : ℚ) ≤ (num : ℚ) / den := by positivity
  have hmant : ∀ accuracy, (ExtendedMantissa.ofMantissaAndAccuracy m accuracy).mantissa = m := by
    rintro (_ | (_ | _ | _)) <;> rfl
  refine ⟨?_, ?_, ?_⟩
  · rw [hmant]
    exact mul_le_mul_of_nonneg_right (by linarith) hpos.le
  · rw [hmant]
    exact mul_lt_mul_of_pos_right (by linarith) hpos
  · rw [hmant]
    intro heq
    have hzero : (num : ℚ) / den = 0 := by linarith [mul_right_cancel₀ hpos.ne' heq]
    have : num = 0 := by
      rw [div_eq_zero_iff] at hzero
      exact_mod_cast hzero.resolve_right hden.ne'
    subst this
    exact ⟨rfl, rfl⟩

namespace Describes

variable {em : ExtendedMantissa} {e : ℤ} {v : ℚ}

/-- Dropping one more bit. -/
theorem shiftRightOne (h : Describes em e v) : Describes em.shiftRightOne (e + 1) v := by
  have hpos : (0 : ℚ) < 2 ^ e := by positivity
  have hpow : (2 : ℚ) ^ (e + 1) = 2 * 2 ^ e := by
    rw [zpow_add₀ (by norm_num), zpow_one, mul_comm]
  have hhalf : ((em.mantissa / 2 : ℕ) : ℚ) * 2 + (em.mantissa % 2 : ℕ) = em.mantissa := by
    exact_mod_cast Nat.div_add_mod' em.mantissa 2
  have hbit : ((em.mantissa % 2 : ℕ) : ℚ) ≤ 1 := by
    exact_mod_cast Nat.le_of_lt_succ (Nat.mod_lt _ (by norm_num))
  have hbit' : (0 : ℚ) ≤ (em.mantissa % 2 : ℕ) := Nat.cast_nonneg _
  have hle := h.le
  have hlt := h.lt
  refine ⟨?_, ?_, ?_⟩
  · rw [hpow]
    change ((em.mantissa / 2 : ℕ) : ℚ) * (2 * 2 ^ e) ≤ v
    nlinarith
  · rw [hpow]
    change v < (((em.mantissa / 2 : ℕ) : ℚ) + 1) * (2 * 2 ^ e)
    nlinarith
  · rw [hpow]
    change v = ((em.mantissa / 2 : ℕ) : ℚ) * (2 * 2 ^ e) →
      (em.mantissa % 2 != 0) = false ∧ (em.roundBit || em.stickyBit) = false
    intro heq
    -- then the bit that was dropped is clear, and so were those before it
    have heven : ((em.mantissa % 2 : ℕ) : ℚ) = 0 := by nlinarith
    have heven' : em.mantissa % 2 = 0 := by exact_mod_cast heven
    obtain ⟨hround, hsticky⟩ := h.clear (by rw [heq, ← hhalf, heven]; ring)
    rw [heven', hround, hsticky]
    exact ⟨rfl, rfl⟩

/-- Dropping any number of bits. -/
theorem shiftRight (h : Describes em e v) (n : ℕ) : Describes (em >>> n) (e + n) v := by
  change Describes (n.repeat ExtendedMantissa.shiftRightOne em) _ v
  induction n with
  | zero => rwa [Nat.cast_zero, add_zero]
  | succ n ih =>
    rw [Nat.cast_succ, ← add_assoc]
    exact ih.shiftRightOne

/-- Rounding takes the mantissa or, if something was dropped, the next one. -/
theorem roundedMantissa_eq (em : ExtendedMantissa) :
    em.roundedMantissa = em.mantissa
      ∨ em.roundedMantissa = em.mantissa + 1 ∧ (em.roundBit = true ∨ em.stickyBit = true) := by
  obtain ⟨m, round, sticky⟩ := em
  cases round with
  | false => cases sticky <;> exact .inl rfl
  | true =>
    cases sticky with
    | true => exact .inr ⟨rfl, .inl rfl⟩
    | false =>
      change m + m % 2 = m ∨ m + m % 2 = m + 1 ∧ _
      rcases Nat.mod_two_eq_zero_or_one m with h | h
      · exact .inl (by omega)
      · exact .inr ⟨by omega, .inl rfl⟩

/-- No multiple is passed over by rounding. -/
theorem sameSide (h : Describes em e v) : SameSide e v (em.roundedMantissa * 2 ^ e) := by
  have hpos : (0 : ℚ) < 2 ^ e := by positivity
  intro j
  constructor
  · intro hj
    refine mul_le_mul_of_nonneg_right ?_ hpos.le
    have hle : (em.mantissa : ℚ) ≤ j := le_of_mul_le_mul_right (h.le.trans hj) hpos
    rcases roundedMantissa_eq em with heq | ⟨heq, hbits⟩
    · rw [heq]
      exact hle
    · -- something was dropped, so the multiple is not the mantissa itself
      have hne : v ≠ em.mantissa * 2 ^ e := by
        intro hv
        obtain ⟨hround, hsticky⟩ := h.clear hv
        rw [hround, hsticky] at hbits
        exact hbits.elim Bool.false_ne_true Bool.false_ne_true
      have hlt : (em.mantissa : ℚ) < j :=
        lt_of_mul_lt_mul_right ((lt_of_le_of_ne h.le hne.symm).trans_le hj) hpos.le
      have hint : (em.mantissa : ℤ) < j := by exact_mod_cast hlt
      rw [heq]
      exact_mod_cast hint
  · intro hj
    refine mul_le_mul_of_nonneg_right ?_ hpos.le
    have hlt : (j : ℚ) < em.mantissa + 1 := lt_of_mul_lt_mul_right (hj.trans_lt h.lt) hpos.le
    have hint : j < (em.mantissa : ℤ) + 1 := by exact_mod_cast hlt
    have hle : (em.mantissa : ℤ) ≤ em.roundedMantissa := by
      rcases roundedMantissa_eq em with heq | ⟨heq, -⟩ <;> omega
    exact_mod_cast (show j ≤ (em.roundedMantissa : ℤ) by omega)

end Describes

/-! ## Rounding to the format -/

/-- The exponent that the format asks for. -/
theorem targetExponent_eq (t : ℤ) : Format.binary64.targetExponent t = max (t - 53) (-1074) := by
  obtain ⟨hbits, hmin, -⟩ := binary64_sizes
  unfold Format.targetExponent
  rw [hbits, hmin]
  rfl

/-- Dropping bits divides the mantissa. -/
theorem mantissa_shiftRight (em : ExtendedMantissa) (n : ℕ) :
    (em >>> n).mantissa = em.mantissa / 2 ^ n := by
  change (n.repeat ExtendedMantissa.shiftRightOne em).mantissa = _
  induction n with
  | zero => rw [pow_zero, Nat.div_one]; rfl
  | succ n ih =>
    rw [pow_succ, ← Nat.div_div_eq_div_mul, ← ih]
    rfl

theorem mantissa_ofMantissaAndAccuracy (m : ℕ) (accuracy : Accuracy) :
    (ExtendedMantissa.ofMantissaAndAccuracy m accuracy).mantissa = m := by
  obtain _ | _ | _ | _ := accuracy <;> rfl

/-- At the exponent that the format asks for a mantissa has 53 bits, or fewer at the least exponent.
-/
theorem mantissa_bounds {m n : ℕ} {e t : ℤ} (ht : t = max (totalExponent m e - 53) (-1074))
    (hn : t = e + n) : m / 2 ^ n < 2 ^ 53 ∧ (2 ^ 52 ≤ m / 2 ^ n ∨ t = -1074) := by
  have hupper : m < 2 ^ (m.log2 + 1) := Nat.lt_log2_self
  unfold totalExponent at ht
  constructor
  · rw [Nat.div_lt_iff_lt_mul (by positivity), ← pow_add]
    exact hupper.trans_le (Nat.pow_le_pow_right (by norm_num) (by omega))
  · by_cases hleast : t = -1074
    · exact .inr hleast
    · have hm : m ≠ 0 := by
        rintro rfl
        rw [show Nat.log2 0 = 0 from rfl] at ht
        omega
      refine .inl ?_
      rw [Nat.le_div_iff_mul_le (by positivity), ← pow_add]
      exact (Nat.pow_le_pow_right (by norm_num) (by omega)).trans (Nat.log2_self_le hm)

/-- Rounding may carry into a bit too many, and dropping it again loses nothing. -/
theorem exists_shift_carry {q : ℕ} {t : ℤ} (hq : q ≤ 2 ^ 53) (ht : -1074 ≤ t)
    (hfull : 2 ^ 52 ≤ q ∨ t = -1074) :
    ∃ m e, (shiftToTargetExponent .binary64 q t .exact).1.mantissa = m
      ∧ (shiftToTargetExponent .binary64 q t .exact).2 = e
      ∧ (m : ℚ) * 2 ^ e = q * 2 ^ t
      ∧ m < 2 ^ 53 ∧ t ≤ e ∧ e ≤ t + 1 ∧ (2 ^ 52 ≤ m ∨ e = -1074) := by
  refine ⟨_, _, rfl, rfl, ?_⟩
  unfold shiftToTargetExponent shiftToExponent totalExponent
  dsimp only
  rw [targetExponent_eq, mantissa_shiftRight, mantissa_ofMantissaAndAccuracy]
  rcases hq.lt_or_eq with hlt | rfl
  · have hlog : q.log2 < 53 := by
      rcases Nat.eq_zero_or_pos q with rfl | hpos
      · decide
      · exact (Nat.log2_lt hpos.ne').2 hlt
    have hstay : (max ((q.log2 : ℤ) + 1 + t - 53) (-1074) - t).toNat = 0 := by omega
    rw [hstay, pow_zero, Nat.div_one, Nat.cast_zero, add_zero]
    exact ⟨rfl, hlt, le_rfl, by omega, hfull⟩
  · have hlog : (2 ^ 53 : ℕ).log2 = 53 := Nat.log2_two_pow
    have hcarry : (max (((2 ^ 53 : ℕ).log2 : ℤ) + 1 + t - 53) (-1074) - t).toNat = 1 := by omega
    have hhalf : 2 ^ 53 / 2 ^ 1 = 2 ^ 52 := by norm_num
    rw [hcarry, hhalf]
    refine ⟨?_, by norm_num, by omega, le_rfl, .inl le_rfl⟩
    rw [Nat.cast_one, zpow_add₀ (by norm_num)]
    push_cast
    ring

/-- What is rounded to the format, packed and taken apart again is a number that passes no multiple
over; how fine these multiples are depends on where the leading bit is. -/
theorem exists_number_roundWithAccuracy (sign : Sign) {m : ℕ} {e k : ℤ} {accuracy : Accuracy}
    {v : ℚ} (h : Describes (.ofMantissaAndAccuracy m accuracy) e v)
    (he : e ≤ max (totalExponent m e - 53) (-1074)) (hk : totalExponent m e - 53 ≤ k)
    (hk0 : -1074 ≤ k) (hk1 : k ≤ 970) :
    ∃ r, SameSide k v r
      ∧ number? (Float.Model.pack (roundWithAccuracy .binary64 sign m e accuracy)).unpack
        = some (signed sign r) := by
  obtain ⟨n, hn⟩ := Int.le.dest he
  have hshift : (max (totalExponent m e - 53) (-1074) - e).toNat = n := by omega
  have hfirst : shiftToTargetExponent .binary64 m e accuracy
      = (ExtendedMantissa.ofMantissaAndAccuracy m accuracy >>> n, e + n) := by
    unfold shiftToTargetExponent shiftToExponent
    dsimp only
    rw [targetExponent_eq, hshift]
  obtain ⟨hless, hfull⟩ := mantissa_bounds rfl hn.symm
  have hside := (h.shiftRight n).sameSide
  have hround := Describes.roundedMantissa_eq
    (ExtendedMantissa.ofMantissaAndAccuracy m accuracy >>> n)
  rw [mantissa_shiftRight, mantissa_ofMantissaAndAccuracy] at hround
  unfold roundWithAccuracy
  rw [hfirst]
  dsimp only
  generalize (ExtendedMantissa.ofMantissaAndAccuracy m accuracy >>> n).roundedMantissa = q at *
  obtain ⟨m', e', hm', he', hvalue, hlt, hle, hle', hnormal⟩ := exists_shift_carry (t := e + n)
    (show q ≤ 2 ^ 53 by omega) (by omega) (by omega)
  refine ⟨q * 2 ^ (e + (n : ℤ)), hside.mono (by omega), ?_⟩
  rw [← hvalue]
  by_cases hzero : (shiftToTargetExponent .binary64 q (e + n) .exact).1.mantissa = 0
  · rw [dif_pos hzero]
    rw [hm'] at hzero
    rw [unpack_pack_zero, hzero, Nat.cast_zero, zero_mul]
    cases sign with
    | negative => exact congrArg some neg_zero.symm
    | positive => rfl
  · rw [dif_neg hzero]
    rw [hm'] at hzero
    have hpack := unpack_pack_finite sign (Nat.pos_of_ne_zero hzero)
      ⟨hlt, by omega, by omega, hnormal⟩
    rw [finite_congr sign _ (Nat.pos_of_ne_zero hzero) hm' he', hpack]
    rfl

end Orthomosaic.Binary64
