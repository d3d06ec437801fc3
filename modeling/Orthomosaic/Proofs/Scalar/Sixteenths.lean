import Orthomosaic.Proofs.Longitude
import Orthomosaic.Proofs.Scalar.Binary64

/-!
# Doubles on the grid of sixteenths

The corners and centres of buckets lie on whole sixteenths of a degree. A double has room for all of
these up to `2 ^ 49` degrees, so sums, multiples and remainders of them are not rounded. `Sixteenths`
names such a double by its whole number of sixteenths, and each operation is the one on whole numbers.

The fact behind it is that rounding changes no multiple of a power of two that the format has room for
(`Rounds.denotes_multiple`).
-/

namespace Orthomosaic.Binary64

open Float.Model UnpackedFloat Scalar

variable {x y : Float} {q : ℚ} {j k n : ℤ}

/-! ## Multiples of powers of two -/

/-- A multiple of a power of two is not changed. -/
theorem SameSide.eq_multiple {e e' : ℤ} {v r : ℚ} (h : SameSide e v r) (he : e ≤ e')
    (hv : v = j * 2 ^ e') : r = v := by
  obtain ⟨hle, hge⟩ := h.mono he j
  rw [← hv] at hle hge
  exact le_antisymm (hle (le_refl v)) (hge (le_refl v))

/-- Rounding loses nothing of a multiple of a power of two that the format has room for. -/
theorem Rounds.denotes_multiple {e : ℤ} (h : Rounds n q x) (he : n - 53 ≤ e) (hq : q = j * 2 ^ e) :
    Denotes x q := by
  obtain ⟨r, hr, hside⟩ := h
  rwa [hside.eq_multiple he hq] at hr

theorem div_sixteen_eq (k : ℤ) : (k : ℚ) / 16 = k * 2 ^ (-4 : ℤ) := by
  rw [div_eq_mul_inv]
  norm_num

/-! ## Sixteenths -/

/-- The double stands for a whole number of sixteenths. -/
def Sixteenths (x : Float) (k : ℤ) : Prop :=
  Denotes x ((k : ℚ) / 16)

/-- Sixteenths below a power of two that leaves room for them are not rounded. -/
theorem sixteenths_of_rounds (h : Rounds n ((k : ℚ) / 16) x) (hn : n ≤ 49) : Sixteenths x k :=
  h.denotes_multiple (by omega) (div_sixteen_eq k)

/-- Whole numbers of sixteenths below `2 ^ 53` stand for numbers below `2 ^ 49`. -/
theorem abs_div_sixteen_lt (h : |k| < 2 ^ 53) : |(k : ℚ) / 16| < 2 ^ (49 : ℤ) := by
  have hcast : |(k : ℚ)| < 2 ^ 53 := by exact_mod_cast h
  rw [abs_div, abs_of_pos (by norm_num : (0 : ℚ) < 16), div_lt_iff₀ (by norm_num)]
  exact hcast.trans_eq (by norm_num)

theorem sixteenths_of_denotes (h : Denotes x k) : Sixteenths x (16 * k) := by
  unfold Sixteenths
  push_cast
  rwa [mul_div_cancel_left₀ _ (by norm_num : (16 : ℚ) ≠ 0)]

theorem sixteenths_intCast (h : |k| < 2 ^ 53) : Sixteenths (k : Float) (16 * k) :=
  sixteenths_of_denotes (denotes_intCast h)

theorem sixteenths_zero : Sixteenths (0 : Float) 0 :=
  sixteenths_of_denotes (denotes_ofNat (k := 0) (by norm_num))

theorem Sixteenths.le_iff (hx : Sixteenths x j) (hy : Sixteenths y k) : x ≤ y ↔ j ≤ k := by
  rw [Denotes.le_iff hx hy, div_le_div_iff_of_pos_right (by norm_num)]
  exact_mod_cast Iff.rfl

theorem Sixteenths.lt_iff (hx : Sixteenths x j) (hy : Sixteenths y k) : x < y ↔ j < k := by
  rw [Denotes.lt_iff hx hy, div_lt_div_iff_of_pos_right (by norm_num)]
  exact_mod_cast Iff.rfl

/-- Sums on the grid. -/
theorem Sixteenths.add (hx : Sixteenths x j) (hy : Sixteenths y k) (h : |j + k| < 2 ^ 53) :
    Sixteenths (x + y) (j + k) := by
  have hsum : ((j + k : ℤ) : ℚ) / 16 = (j : ℚ) / 16 + (k : ℚ) / 16 := by
    push_cast
    ring
  refine sixteenths_of_rounds (n := 49) ?_ le_rfl
  have hbound := abs_div_sixteen_lt h
  rw [hsum] at hbound ⊢
  exact Denotes.add hx hy hbound (by norm_num) (by norm_num)

/-- Differences on the grid. -/
theorem Sixteenths.sub (hx : Sixteenths x j) (hy : Sixteenths y k) (h : |j - k| < 2 ^ 53) :
    Sixteenths (x - y) (j - k) := by
  have hdiff : ((j - k : ℤ) : ℚ) / 16 = (j : ℚ) / 16 - (k : ℚ) / 16 := by
    push_cast
    ring
  refine sixteenths_of_rounds (n := 49) ?_ le_rfl
  have hbound := abs_div_sixteen_lt h
  rw [hdiff] at hbound ⊢
  exact Denotes.sub hx hy hbound (by norm_num) (by norm_num)

/-- Products on the grid. -/
theorem sixteenths_mul {p q : ℚ} (hx : Denotes x p) (hy : Denotes y q) (hk : p * q = (k : ℚ) / 16)
    (h : |k| < 2 ^ 53) : Sixteenths (x * y) k := by
  refine sixteenths_of_rounds (n := 49) ?_ le_rfl
  have hbound := abs_div_sixteen_lt h
  rw [← hk] at hbound ⊢
  exact Denotes.mul hx hy hbound (by norm_num) (by norm_num)

/-- Quotients on the grid. -/
theorem sixteenths_div {p q : ℚ} (hx : Denotes x p) (hy : Denotes y q) (hq : q ≠ 0)
    (hk : p / q = (k : ℚ) / 16) (h : |k| < 2 ^ 53) : Sixteenths (x / y) k := by
  refine sixteenths_of_rounds (n := 49) ?_ le_rfl
  have hbound := abs_div_sixteen_lt h
  rw [← hk] at hbound ⊢
  exact Denotes.div hx hy hq hbound (by norm_num) (by norm_num)

/-! ## Whole turns -/

/-- What whole turns leave over of a magnitude on the grid. -/
theorem remainder_sixteenths {m : ℕ} {e : ℤ} {a : ℕ} (h : (m : ℚ) * 2 ^ e = (a : ℚ) / 16) :
    ((numerator m e % (360 * denominator e) : ℕ) : ℚ) * 2 ^ min e 0
      = ((a % 5760 : ℕ) : ℚ) / 16 := by
  have hden : (denominator e : ℚ) ≠ 0 := by
    have : 0 < denominator e := Nat.pow_pos (by norm_num)
    exact_mod_cast this.ne'
  rw [← numerator_div_denominator, div_eq_div_iff hden (by norm_num)] at h
  have hscale : 16 * numerator m e = denominator e * a := by
    have : numerator m e * 16 = a * denominator e := by exact_mod_cast h
    linarith
  -- sixteen times both sides, the remainder is taken on whole numbers
  have hrest : 16 * (numerator m e % (360 * denominator e)) = denominator e * (a % 5760) := by
    rw [← Nat.mul_mod_mul_left, hscale, ← Nat.mul_mod_mul_left]
    congr 1
    ring
  rw [zpow_min_zero, ← div_eq_mul_inv, div_eq_div_iff hden (by norm_num)]
  have : numerator m e % (360 * denominator e) * 16 = a % 5760 * denominator e := by linarith
  exact_mod_cast this

/-- The remainder of a magnitude on the grid, with the sign of the number. -/
theorem exists_signed_remainder {sign : Sign} {p : ℚ} (hp : 0 < p)
    (h : (k : ℚ) / 16 = signed sign p) :
    ∃ r : ℤ, signed sign (((k.natAbs % 5760 : ℕ) : ℚ) / 16) = (r : ℚ) / 16
      ∧ (-5760 < r ∧ r < 5760) ∧ r % 5760 = k % 5760 := by
  cases sign with
  | positive =>
    have hk : 0 < k := by
      have : (0 : ℚ) < (k : ℚ) / 16 := h ▸ hp
      exact_mod_cast (show (0 : ℚ) < k by linarith)
    refine ⟨k % 5760, ?_, by omega, by omega⟩
    rw [← show ((k.natAbs % 5760 : ℕ) : ℤ) = k % 5760 by omega, Int.cast_natCast]
    rfl
  | negative =>
    have hk : k < 0 := by
      have : (k : ℚ) / 16 < 0 := h ▸ neg_neg_of_pos hp
      exact_mod_cast (show (k : ℚ) < 0 by linarith)
    refine ⟨-(-k % 5760), ?_, by omega, by omega⟩
    rw [← show ((k.natAbs % 5760 : ℕ) : ℤ) = -k % 5760 by omega, Int.cast_neg, Int.cast_natCast,
      neg_div]
    rfl

/-- The remainder of a division by 360 on the grid: less than a turn, and whole turns away. -/
theorem exists_sixteenths_turnRemainder (h : Sixteenths x k) :
    ∃ r, Sixteenths (turnRemainder x) r ∧ (-5760 < r ∧ r < 5760) ∧ r % 5760 = k % 5760 := by
  have hturn : Denotes (360 : Float) 360 := denotes_ofNat (k := 360) (by norm_num)
  unfold turnRemainder
  by_cases hless : x.abs < 360
  · have hbound := (h.abs.lt_iff hturn).1 hless
    rw [abs_div, abs_of_pos (by norm_num : (0 : ℚ) < 16), div_lt_iff₀ (by norm_num)] at hbound
    have hk : |k| < 5760 := by
      rw [show (360 : ℚ) * 16 = (5760 : ℤ) by norm_num] at hbound
      exact_mod_cast hbound
    rw [if_pos hless]
    exact ⟨k, h, abs_lt.1 hk, rfl⟩
  · rw [if_neg hless]
    unfold value
    rcases h.unpack_cases with ⟨s, -, hzero⟩ | ⟨s, m, e, hm, hu, hq, -⟩
    · refine absurd ((h.abs.lt_iff hturn).2 ?_) hless
      rw [hzero]
      norm_num
    · have hpos : (0 : ℚ) < m * 2 ^ e := by positivity
      have hmag : (m : ℚ) * 2 ^ e = (k.natAbs : ℚ) / 16 := by
        have habs := congrArg (fun p : ℚ => |p|) hq
        rw [abs_signed, abs_of_pos hpos, abs_div, abs_of_pos (by norm_num : (0 : ℚ) < 16)] at habs
        rw [← habs, Nat.cast_natAbs, Int.cast_abs]
      obtain ⟨r, hvalue, hrange, hmod⟩ := exists_signed_remainder hpos hq
      have hround := rounds_round (n := 9) s ((remainder_lt m e).trans (by norm_num)) (by norm_num)
        (by norm_num)
      rw [remainder_sixteenths hmag, hvalue] at hround
      rw [hu]
      dsimp only
      unfold ofParts
      rw [signOf_isMinus]
      exact ⟨r, sixteenths_of_rounds hround (by norm_num), hrange, hmod⟩

/-- What whole turns leave over on the grid. -/
theorem Sixteenths.turnPart (h : Sixteenths x k) :
    Sixteenths (Scalar.turnPart x) (k % 5760) := by
  have hturn : Sixteenths (360 : Float) (16 * 360) :=
    sixteenths_of_denotes (denotes_ofNat (k := 360) (by norm_num))
  obtain ⟨r, hr, ⟨hlow, hhigh⟩, hmod⟩ := exists_sixteenths_turnRemainder h
  change Sixteenths (Binary64.turnPart x) (k % 5760)
  unfold Binary64.turnPart
  dsimp only
  by_cases hneg : turnRemainder x < 0
  · have hr0 := (hr.lt_iff sixteenths_zero).1 hneg
    rw [if_pos hneg, show k % 5760 = r + 16 * 360 by omega]
    exact hr.add hturn (by rw [abs_lt]; omega)
  · have hr0 := mt (hr.lt_iff sixteenths_zero).2 hneg
    rw [if_neg hneg, show k % 5760 = r by omega]
    exact hr

/-- The name in `[-180, 180)` of a meridian on the grid. -/
def normalSixteenths (k : ℤ) : ℤ :=
  (k + 2880) % 5760 - 2880

theorem normalSixteenths_mem (k : ℤ) : -2880 ≤ normalSixteenths k ∧ normalSixteenths k < 2880 := by
  unfold normalSixteenths
  omega

/-- Normalising a longitude on the grid. -/
theorem Sixteenths.normalizeLon (h : Sixteenths x k) (hk : |k| < 2 ^ 52) :
    Sixteenths (Orthomosaic.normalizeLon x) (normalSixteenths k) := by
  have hhalf : Sixteenths (180 : Float) (16 * 180) :=
    sixteenths_of_denotes (denotes_literal (k := 180) (by norm_num))
  obtain ⟨hk0, hk1⟩ := abs_lt.1 hk
  obtain ⟨hlow, hhigh⟩ := normalSixteenths_mem k
  have hwrapped : Sixteenths (Scalar.turnPart (x + 180) - 180) (normalSixteenths k) :=
    ((h.add hhalf (by rw [abs_lt]; omega)).turnPart).sub hhalf (by rw [abs_lt]; omega)
  have hbelow : ¬ (180 : Float) ≤ Scalar.turnPart (x + 180) - 180 :=
    mt (hhalf.le_iff hwrapped).1 (by omega)
  exact (congrArg (Sixteenths · _) (if_neg hbelow)).mpr hwrapped

/-- Normalising the same longitude in exact arithmetic. -/
theorem normalizeLon_div_sixteen (k : ℤ) :
    Orthomosaic.normalizeLon ((k : ℚ) / 16) = (normalSixteenths k : ℚ) / 16 := by
  obtain ⟨hlow, hhigh⟩ := normalSixteenths_mem k
  have hlow' : (-2880 : ℚ) ≤ normalSixteenths k := by exact_mod_cast hlow
  have hhigh' : (normalSixteenths k : ℚ) < 2880 := by exact_mod_cast hhigh
  refine normalizeLon_eq_of ⟨(k + 2880) / 5760, ?_⟩ (by linarith) (by linarith)
  have hsplit : k = normalSixteenths k + 5760 * ((k + 2880) / 5760) := by
    unfold normalSixteenths
    omega
  have hsplit' : (k : ℚ) = normalSixteenths k + 5760 * (((k + 2880) / 5760 : ℤ) : ℚ) := by
    exact_mod_cast hsplit
  rw [hsplit']
  ring

end Orthomosaic.Binary64
