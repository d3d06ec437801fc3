import Orthomosaic.Proofs.Binary64.Order
import Orthomosaic.Proofs.Scalar.Exact
import Orthomosaic.Scalar.Binary64

/-!
# Doubles as degrees, followed on rationals

What the operations of `Scalar` do on doubles that stand for numbers: whole numbers are kept
exactly, the integer part is that of the number, and taking whole turns off leaves at most a turn.
Together with the arithmetic and the comparisons of `Orthomosaic.Proofs.Binary64` this is all that
the proofs about degrees use of doubles.
-/

namespace Orthomosaic.Binary64

open Float.Model UnpackedFloat Scalar

variable {x y : Float} {p q : ℚ}

/-! ## Whole numbers -/

/-- A double that is taken apart into a form stands for its number. -/
theorem denotes_of_unpack {sign : Sign} {m : ℕ} {e : ℤ} {hm : 0 < m}
    (h : x.toModel.unpack = .finite sign m e hm) : Denotes x (signed sign (m * 2 ^ e)) :=
  congrArg number? h

/-- A natural number with at most 53 bits is kept. -/
theorem denotes_ofNat {k : ℕ} (h : k < 2 ^ 53) : Denotes (Float.ofNat k) k := by
  have hcast : (k.toUInt64.toNat : ℤ) = k := by
    rw [Nat.toUInt64_eq, UInt64.toNat_ofNat']
    omega
  have hbound : |((k : ℤ) : ℚ)| < 2 ^ (53 : ℤ) := by
    rw [abs_of_nonneg (by positivity)]
    exact_mod_cast h
  -- a whole number is converted and then scaled by the zeroth power of ten
  have hone : Denotes (getElem Float.exactlyRepresentablePowersOfTen 0 (by decide)) 1 := by
    have hu := denotes_of_unpack
      (show (getElem Float.exactlyRepresentablePowersOfTen 0 (by decide)).toModel.unpack
        = .finite .positive (2 ^ 52) (-52) (by decide) from rfl)
    have hvalue : signed .positive ((2 ^ 52 : ℕ) * 2 ^ (-52 : ℤ)) = 1 := by
      unfold signed
      norm_num
    rwa [hvalue] at hu
  have hconvert : Denotes k.toUInt64.toFloat (k : ℤ) := by
    have hround := rounds_normalize (m := k) (e := 0) (n := 53) .positive
      (by rw [zpow_zero, mul_one]; exact hbound) (by norm_num) (by norm_num)
    rw [zpow_zero, mul_one] at hround
    change Denotes (.ofModel (.pack
      (UnpackedFloat.normalize .binary64 (k.toUInt64.toNat : ℤ) 0 .positive))) _
    rw [hcast]
    exact hround.denotes_int le_rfl
  have hfast : Float.ofNat k
      = k.toUInt64.toFloat * getElem Float.exactlyRepresentablePowersOfTen 0 (by decide) :=
    dif_pos ⟨h, by decide⟩
  have hscale := hconvert.mul hone (n := 53) (by rw [mul_one]; exact hbound) (by norm_num)
    (by norm_num)
  rw [mul_one] at hscale
  rw [hfast]
  exact_mod_cast hscale.denotes_int le_rfl

/-- An integer with at most 53 bits is kept. -/
theorem denotes_intCast {k : ℤ} (h : |k| < 2 ^ 53) : Denotes (k : Float) k := by
  cases k with
  | ofNat k =>
    rw [Int.ofNat_eq_natCast, Int.cast_natCast]
    rw [Int.ofNat_eq_natCast, Nat.abs_cast] at h
    exact denotes_ofNat (by exact_mod_cast h)
  | negSucc k =>
    rw [Int.cast_negSucc]
    rw [Int.negSucc_eq, abs_neg] at h
    refine (denotes_ofNat ?_).neg
    rw [abs_of_nonneg (by positivity)] at h
    exact_mod_cast h

theorem denotes_literal {k : ℕ} (h : k < 2 ^ 53) :
    Denotes (@OfNat.ofNat Float k (Scalar.instOfNat k)) k :=
  denotes_intCast (k := k) (by rw [Nat.abs_cast]; exact_mod_cast h)

/-- How far a double is from zero. -/
theorem Denotes.magnitude (h : Denotes x q) : Denotes (Scalar.magnitude x) |q| := by
  have hzero : Denotes (0 : Float) 0 := denotes_ofNat (k := 0) (by norm_num)
  by_cases hneg : x < 0
  · have hneg' : q < 0 := (h.lt_iff hzero).1 hneg
    rw [abs_of_neg hneg']
    exact (congrArg (Denotes · (-q)) (if_pos hneg)).mpr h.neg
  · have hneg' : 0 ≤ q := not_lt.1 (mt (h.lt_iff hzero).2 hneg)
    rw [abs_of_nonneg hneg']
    exact (congrArg (Denotes · q) (if_neg hneg)).mpr h

/-! ## Integer parts -/

/-- The number that a numerator and a denominator give. -/
theorem numerator_div_denominator (m : ℕ) (e : ℤ) :
    (numerator m e : ℚ) / denominator e = m * 2 ^ e := by
  have hexp : e = (e.toNat : ℤ) - ((-e).toNat : ℤ) := by omega
  have hpow : (2 : ℚ) ^ e = 2 ^ e.toNat / 2 ^ (-e).toNat := by
    conv_lhs => rw [hexp]
    rw [zpow_sub₀ (by norm_num), zpow_natCast, zpow_natCast]
  rw [hpow, ← mul_div_assoc]
  change ((m * 2 ^ e.toNat : ℕ) : ℚ) / ((2 ^ (-e).toNat : ℕ) : ℚ) = _
  push_cast
  rfl

theorem numerator_div_denominator_nat (m : ℕ) (e : ℤ) :
    ((numerator m e / denominator e : ℕ) : ℤ) = ⌊(m : ℚ) * 2 ^ e⌋ := by
  rw [← numerator_div_denominator, Rat.floor_natCast_div_natCast]
  rfl

/-- The integer part of a double is that of its number. -/
theorem Denotes.truncate_eq (h : Denotes x q) : Scalar.truncate x = Scalar.truncate q := by
  change Binary64.truncate x = max (-2147483648) (min 2147483647 (Rational.integerPart q))
  unfold Binary64.truncate value
  rcases h.unpack_cases with ⟨s, hu, rfl⟩ | ⟨s, m, e, hm, hu, rfl, -⟩ <;> rw [hu] <;> dsimp only
  · cases s <;> decide
  · have hpos : (0 : ℚ) < m * 2 ^ e := by positivity
    rw [numerator_div_denominator_nat]
    cases s with
    | positive =>
      have hpart : Rational.integerPart (m * 2 ^ e) = ⌊(m : ℚ) * 2 ^ e⌋ := if_pos hpos.le
      exact congrArg (fun n => max (-2147483648) (min 2147483647 n)) hpart.symm
    | negative =>
      have hpart : Rational.integerPart (-(m * 2 ^ e)) = -⌊(m : ℚ) * 2 ^ e⌋ := by
        refine (if_neg (not_le.2 (neg_neg_of_pos hpos))).trans ?_
        rw [Rat.ceil_eq_neg_floor_neg, neg_neg]
        rfl
      exact congrArg (fun n => max (-2147483648) (min 2147483647 n)) hpart.symm

/-! ## Whole turns -/

theorem signOf_isMinus (sign : Sign) : signOf (isMinus sign) = sign := by
  cases sign <;> rfl

/-- The parts that a denominator counts. -/
theorem zpow_min_zero (e : ℤ) : (2 : ℚ) ^ min e 0 = (denominator e : ℚ)⁻¹ := by
  have hexp : min e 0 = -((-e).toNat : ℤ) := by omega
  change _ = (((2 ^ (-e).toNat : ℕ) : ℚ))⁻¹
  rw [hexp, zpow_neg, zpow_natCast]
  push_cast
  rfl

/-- What whole turns leave over of a magnitude is below a turn. -/
theorem remainder_lt (m : ℕ) (e : ℤ) :
    ((numerator m e % (360 * denominator e) : ℕ) : ℚ) * 2 ^ min e 0 < 360 := by
  have hden : 0 < denominator e := Nat.pow_pos (by norm_num)
  have hden' : (0 : ℚ) < denominator e := by exact_mod_cast hden
  have hrest : ((numerator m e % (360 * denominator e) : ℕ) : ℚ) < 360 * denominator e := by
    exact_mod_cast Nat.mod_lt _ (Nat.mul_pos (by norm_num) hden)
  rw [zpow_min_zero, ← div_eq_mul_inv, div_lt_iff₀ hden']
  exact hrest

/-- What a division by 360 leaves over is at most a turn, if it is a number. -/
theorem turnRemainder_spec (x : Float) :
    turnRemainder x = nan ∨ ∃ r, Denotes (turnRemainder x) r ∧ -360 ≤ r ∧ r ≤ 360 := by
  have hturn : Denotes (360 : Float) 360 := denotes_ofNat (k := 360) (by norm_num)
  unfold turnRemainder
  rcases nan_or_infinity_or_denotes x with rfl | ⟨sign, hx⟩ | ⟨q, hq⟩
  · exact .inl rfl
  · left
    have habs : x.abs = .ofModel (.pack (.infinity .positive)) := by
      change Float.ofModel (.pack x.toModel.unpack.abs) = _
      rw [hx]
      rfl
    unfold value
    rw [habs, hx]
    rfl
  · right
    by_cases hless : x.abs < 360
    · obtain ⟨hlow, hhigh⟩ := abs_lt.1 ((hq.abs.lt_iff hturn).1 hless)
      rw [if_pos hless]
      exact ⟨q, hq, hlow.le, hhigh.le⟩
    · rw [if_neg hless]
      unfold value
      rcases hq.unpack_cases with ⟨s, hu, rfl⟩ | ⟨s, m, e, hm, hu, rfl, -⟩
      · exact absurd ((hq.abs.lt_iff hturn).2 (by norm_num)) hless
      · rw [hu]
        have hrest := remainder_lt m e
        have hrest0 : (0 : ℚ) ≤ (numerator m e % (360 * denominator e) : ℕ) * 2 ^ min e 0 := by
          positivity
        obtain ⟨r, hr, hside⟩ := rounds_round (n := 9) s (hrest.trans (by norm_num)) (by norm_num)
          (by norm_num)
        obtain ⟨hlow, hhigh⟩ := abs_le.1 ((abs_signed s _).trans_le
          ((abs_of_nonneg hrest0).trans_le hrest.le))
        dsimp only
        unfold ofParts
        rw [signOf_isMinus]
        refine ⟨r, hr, ?_, ?_⟩
        · exact_mod_cast hside.int_le (by norm_num) (n := -360) (by exact_mod_cast hlow)
        · exact_mod_cast hside.le_int (by norm_num) (n := 360) (by exact_mod_cast hhigh)

/-- What whole turns leave over is from 0 to a turn, if it is a number. -/
theorem turnPart_spec (x : Float) :
    Scalar.turnPart x = nan ∨ ∃ r, Denotes (Scalar.turnPart x) r ∧ 0 ≤ r ∧ r ≤ 360 := by
  have hturn : Denotes (360 : Float) 360 := denotes_ofNat (k := 360) (by norm_num)
  have hzero : Denotes (0 : Float) 0 := denotes_ofNat (k := 0) (by norm_num)
  change Binary64.turnPart x = nan ∨ ∃ r, Denotes (Binary64.turnPart x) r ∧ 0 ≤ r ∧ r ≤ 360
  unfold Binary64.turnPart
  dsimp only
  rcases turnRemainder_spec x with hnan | ⟨r, hr, hlow, hhigh⟩
  · rw [hnan]
    exact .inl rfl
  · right
    by_cases hneg : turnRemainder x < 0
    · have hneg' : r < 0 := (hr.lt_iff hzero).1 hneg
      obtain ⟨t, ht, hside⟩ := hr.add hturn (n := 9) (by rw [abs_lt]; constructor <;> linarith)
        (by norm_num) (by norm_num)
      rw [if_pos hneg]
      refine ⟨t, ht, ?_, ?_⟩
      · exact_mod_cast hside.int_le (by norm_num) (n := 0) (by push_cast; linarith)
      · exact_mod_cast hside.le_int (by norm_num) (n := 360) (by push_cast; linarith)
    · rw [if_neg hneg]
      exact ⟨r, hr, not_lt.1 (mt (hr.lt_iff hzero).2 hneg), hhigh⟩

end Orthomosaic.Binary64
