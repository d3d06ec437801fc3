import Orthomosaic.Proofs.Bucket.Canonical
import Orthomosaic.Proofs.Scalar.Sixteenths
import Orthomosaic.Word

/-!
# Steps on doubles

The centre of a bucket lies on a whole sixteenth of a degree, and so does every point that a step from
it looks up, but for the latitude that stands for a pole. Doubles hold these numbers exactly, so the
step runs as in exact arithmetic (`Bucket.sibling_float`). Only two things are rounded on the way: the
latitude that stands for a pole, which stays within its row, and the quotient of a whole degree by
twelve, which does not reach the next whole number.
-/

namespace Orthomosaic.Bucket

open Scalar
open Binary64 hiding truncate turnPart nearest

variable {x y span : Float} {k g : ℤ}

/-! ## Whole degrees -/

theorem floor_sixteenths (k : ℤ) : ⌊(k : ℚ) / 16⌋ = k / 16 := by
  exact_mod_cast Rat.floor_intCast_div_natCast k 16

theorem ceil_sixteenths (k : ℤ) : ⌈(k : ℚ) / 16⌉ = -(-k / 16) := by
  rw [← floor_sixteenths, ← Int.ceil_neg]
  push_cast
  ring_nf

/-- The whole degree of a whole number of sixteenths. -/
theorem floorDegree_div_sixteen (h0 : -2880 ≤ k) (h1 : k < 2880) :
    floorDegree ((k : ℚ) / 16) = k / 16 := by
  have h0q : (-2880 : ℚ) ≤ k := by exact_mod_cast h0
  have h1q : (k : ℚ) < 2880 := by exact_mod_cast h1
  rcases lt_or_ge k 0 with hneg | hpos
  · have hnegq : (k : ℚ) < 0 := by exact_mod_cast hneg
    have htol := snapTolerance_eq
    have hlow : ((k / 16 * 16 : ℤ) : ℚ) ≤ k := by exact_mod_cast (show k / 16 * 16 ≤ k by omega)
    have hhigh : (k : ℚ) ≤ ((k / 16 * 16 + 15 : ℤ) : ℚ) := by
      exact_mod_cast (show k ≤ k / 16 * 16 + 15 by omega)
    push_cast at hlow hhigh
    rw [floorDegree_of_neg (by linarith) (by linarith), sub_eq_iff_eq_add, Int.ceil_eq_iff]
    push_cast
    constructor <;> linarith
  · have hposq : (0 : ℚ) ≤ k := by exact_mod_cast hpos
    rw [floorDegree_of_nonneg (by linarith) (by linarith), floor_sixteenths]

/-- The whole degree of a double on the grid. -/
theorem floorDegree_sixteenths (h : Sixteenths x k) (h0 : -2880 ≤ k) (h1 : k < 2880) :
    floorDegree x = k / 16 := by
  have h0q : (-2880 : ℚ) ≤ k := by exact_mod_cast h0
  have h1q : (k : ℚ) < 2880 := by exact_mod_cast h1
  rcases lt_or_ge k 0 with hneg | hpos
  · have hnegq : (k : ℚ) < 0 := by exact_mod_cast hneg
    obtain ⟨tolerance, htol, hlow, hhigh⟩ := denotes_snapTolerance
    have hwhole : truncate x = -(-k / 16) :=
      (Denotes.truncate_eq h).trans
        ((truncate_of_neg (by linarith) (by linarith)).trans (ceil_sixteenths k))
    have hdiff : Sixteenths (x - ((truncate x : ℤ) : Float)) (k - 16 * -(-k / 16)) := by
      rw [hwhole]
      exact h.sub (sixteenths_intCast (by rw [abs_lt]; omega)) (by rw [abs_lt]; omega)
    have hsnap := (Denotes.magnitude hdiff).lt_iff htol
    by_cases hmultiple : k % 16 = 0
    · -- a whole degree is snapped to
      have hnear : magnitude (x - ((truncate x : ℤ) : Float)) < snapTolerance := by
        rw [hsnap, show k - 16 * -(-k / 16) = 0 by omega]
        rw [Int.cast_zero, zero_div, abs_zero]
        linarith [show (0 : ℚ) < 1 / 2 ^ 24 by norm_num]
      rw [floorDegree_of_snap (.inr hnear), hwhole]
      omega
    · have hfar : ¬ magnitude (x - ((truncate x : ℤ) : Float)) < snapTolerance := by
        have hone : (1 : ℚ) ≤ |((k - 16 * -(-k / 16) : ℤ) : ℚ)| := by
          exact_mod_cast Int.one_le_abs (show k - 16 * -(-k / 16) ≠ 0 by omega)
        rw [hsnap, abs_div, abs_of_pos (by norm_num : (0 : ℚ) < 16), not_lt]
        linarith
      have hbelow : ¬ (0 : Float) ≤ x := mt (sixteenths_zero.le_iff h).1 (by omega)
      rw [floorDegree_of_not_snap (not_or.2 ⟨hbelow, hfar⟩), hwhole]
      omega
  · have hposq : (0 : ℚ) ≤ k := by exact_mod_cast hpos
    rw [floorDegree_of_snap (.inl ((sixteenths_zero.le_iff h).2 hpos)), Denotes.truncate_eq h,
      truncate_of_nonneg (by linarith) (by linarith), floor_sixteenths]

theorem sixteenths_beyond_degree (h : Sixteenths x k) (h0 : -2880 ≤ k) (h1 : k < 2880) :
    Sixteenths (x - ((floorDegree x : ℤ) : Float)) (k % 16) := by
  rw [floorDegree_sixteenths h h0 h1, show k % 16 = k - 16 * (k / 16) by omega]
  exact h.sub (sixteenths_intCast (by rw [abs_lt]; omega)) (by rw [abs_lt]; omega)

/-- What a number on the grid has beyond its whole degree. -/
theorem div_sixteen_beyond_degree (h0 : -2880 ≤ k) (h1 : k < 2880) :
    (k : ℚ) / 16 - (floorDegree ((k : ℚ) / 16) : ℚ) = ((k % 16 : ℤ) : ℚ) / 16 := by
  rw [floorDegree_div_sixteen h0 h1, show k % 16 = k - 16 * (k / 16) by omega]
  push_cast
  ring

/-! ## Longitudes -/

/-- The column of a longitude on the grid. -/
theorem truncate_column {j : ℕ} (h : Sixteenths x k) (h0 : -2880 ≤ k) (h1 : k < 2880)
    (hspan : Denotes span (1 / 2 ^ j)) (hj : j ≤ 3) :
    truncate ((x - ((floorDegree x : ℤ) : Float)) / span)
      = truncate (((k : ℚ) / 16 - (floorDegree ((k : ℚ) / 16) : ℚ)) / (1 / 2 ^ j)) := by
  have hpow : (2 : ℤ) ^ j ≤ 2 ^ 3 := pow_le_pow_right₀ (by norm_num) hj
  have hpow0 : (0 : ℤ) < 2 ^ j := by positivity
  have hrest0 : 0 ≤ k % 16 := by omega
  have hrest1 : k % 16 ≤ 15 := by omega
  have hquot := sixteenths_div (k := k % 16 * 2 ^ j) (sixteenths_beyond_degree h h0 h1) hspan
    (by positivity) (by push_cast; field_simp) (by rw [abs_lt]; constructor <;> nlinarith)
  rw [Denotes.truncate_eq hquot, div_sixteen_beyond_degree h0 h1]
  congr 1
  push_cast
  field_simp

/-- The integer part of a quotient. -/
def IsQuotient (a k q : ℤ) : Prop :=
  (0 ≤ a ∧ q * k ≤ a ∧ a < q * k + k) ∨ (a ≤ 0 ∧ a ≤ q * k ∧ q * k < a + k)

/-- Every quotient has an integer part. -/
theorem exists_isQuotient {k : ℤ} (hk : 0 < k) (a : ℤ) : ∃ q, IsQuotient a k q := by
  rcases le_total 0 a with ha | ha
  · refine ⟨a / k, .inl ⟨ha, Int.ediv_mul_le a hk.ne', ?_⟩⟩
    linarith [Int.lt_ediv_add_one_mul_self a hk]
  · have hle := Int.ediv_mul_le (-a) hk.ne'
    have hlt := Int.lt_ediv_add_one_mul_self (-a) hk
    exact ⟨-(-a / k), .inr ⟨ha, by linarith, by linarith⟩⟩

/-- The multiple of a divisor that a whole degree is cut off to is one of the globe. -/
theorem IsQuotient.mul_mem {a k q : ℤ} (h : IsQuotient a k q) (hk : 0 < k) (ha : -180 ≤ a)
    (ha' : a ≤ 180) : -180 ≤ q * k ∧ q * k ≤ 180 := by
  rcases h with ⟨h0, hle, hlt⟩ | ⟨h0, hle, hlt⟩
  · have : 0 ≤ q := by nlinarith
    exact ⟨by nlinarith, by omega⟩
  · have : q ≤ 0 := by nlinarith
    exact ⟨by omega, by nlinarith⟩

/-- Sixteenths are multiples of the last place of numbers below `2 ^ 7`. -/
theorem mul_zpow_last_place (k : ℤ) :
    ((k * 2 ^ 42 : ℤ) : ℚ) * 2 ^ ((7 : ℤ) - 53) = (k : ℚ) / 16 := by
  push_cast
  norm_num
  ring

/-- A number that is not negative keeps its integer part when it is rounded, if it is a sixteenth short
of the next whole number. -/
theorem truncate_of_sameSide_nonneg {v r : ℚ} {q : ℤ} (hside : SameSide (7 - 53) v r) (h0 : 0 ≤ q)
    (hq : q ≤ 180) (hle : (q : ℚ) ≤ v) (hlt : v ≤ q + 15 / 16) : truncate r = q := by
  have h0q : (0 : ℚ) ≤ q := by exact_mod_cast h0
  have hqq : (q : ℚ) ≤ 180 := by exact_mod_cast hq
  have hlow : (q : ℚ) ≤ r := hside.int_le (by norm_num) hle
  have hhigh := (hside ((16 * q + 15) * 2 ^ 42)).1 (by
    rw [mul_zpow_last_place]
    push_cast
    linarith)
  rw [mul_zpow_last_place] at hhigh
  push_cast at hhigh
  rw [truncate_of_nonneg (h0q.trans hlow) (by linarith), Int.floor_eq_iff]
  exact ⟨hlow, by linarith⟩

/-- So does one that is not positive. -/
theorem truncate_of_sameSide_nonpos {v r : ℚ} {q : ℤ} (hside : SameSide (7 - 53) v r) (h0 : q ≤ 0)
    (hq : -180 ≤ q) (hle : v ≤ q) (hlt : q - 15 / 16 ≤ v) : truncate r = q := by
  have h0q : (q : ℚ) ≤ 0 := by exact_mod_cast h0
  have hqq : (-180 : ℚ) ≤ q := by exact_mod_cast hq
  have hhigh : r ≤ q := hside.le_int (by norm_num) hle
  have hlow := (hside ((16 * q - 15) * 2 ^ 42)).2 (by
    rw [mul_zpow_last_place]
    push_cast
    linarith)
  rw [mul_zpow_last_place] at hlow
  push_cast at hlow
  rcases (hhigh.trans h0q).lt_or_eq with hneg | hzero
  · rw [truncate_of_neg hneg (by linarith), Int.ceil_eq_iff]
    exact ⟨by linarith, hhigh⟩
  · have hq0 : (q : ℚ) = 0 := le_antisymm h0q (hzero ▸ hhigh)
    have : q = 0 := by exact_mod_cast hq0
    rw [hzero, this]
    rfl

/-- The integer part of the quotient of a whole degree by a width. The rounded quotient does not reach
the next whole number, as it is a twelfth short of it or more. -/
theorem truncate_div_float {a c q : ℤ} (hspan : Denotes span c) (hc : 2 ≤ c) (hc' : c ≤ 12)
    (ha : -180 ≤ a) (ha' : a ≤ 180) (h : IsQuotient a c q) : truncate ((a : Float) / span) = q := by
  have hcq : (2 : ℚ) ≤ c := by exact_mod_cast hc
  have hcq' : (c : ℚ) ≤ 12 := by exact_mod_cast hc'
  have haq : (-180 : ℚ) ≤ a := by exact_mod_cast ha
  have haq' : (a : ℚ) ≤ 180 := by exact_mod_cast ha'
  have hpos : (0 : ℚ) < c := by linarith
  have hbound : |(a : ℚ) / c| < 2 ^ (7 : ℤ) := by
    rw [abs_lt, lt_div_iff₀ hpos, div_lt_iff₀ hpos]
    constructor <;> linarith
  obtain ⟨r, hr, hside⟩ := (denotes_intCast (k := a) (by rw [abs_lt]; omega)).div hspan (n := 7)
    hpos.ne' hbound (by norm_num) (by norm_num)
  rw [hr.truncate_eq]
  rcases h with ⟨h0, hle, hlt⟩ | ⟨h0, hle, hlt⟩
  · have hleq : (q : ℚ) * c ≤ a := by exact_mod_cast hle
    have hltq : (a : ℚ) + 1 ≤ q * c + c := by exact_mod_cast hlt
    refine truncate_of_sameSide_nonneg hside (by nlinarith) (by nlinarith) ?_ ?_
    · rwa [le_div_iff₀ hpos]
    · rw [div_le_iff₀ hpos]
      linarith
  · have hleq : (a : ℚ) ≤ q * c := by exact_mod_cast hle
    have hltq : (q : ℚ) * c + 1 ≤ a + c := by exact_mod_cast hlt
    refine truncate_of_sameSide_nonpos hside (by nlinarith) (by nlinarith) ?_ ?_
    · rwa [div_le_iff₀ hpos]
    · rw [le_div_iff₀ hpos]
      linarith

/-- The multiples of a width that a western edge is cut off to are kept in exact arithmetic. -/
theorem truncate_mul_exact {c q : ℤ} (hc : 2 ≤ c) (hc' : c ≤ 12) (h0 : -180 ≤ q * c)
    (h1 : q * c ≤ 180) :
    (truncate ((q : ℚ) * (c : ℚ)) : ℤ) = q * c
      ∧ (truncate ((q : ℚ) * (c : ℚ) - (c : ℚ)) : ℤ) = (q - 1) * c := by
  have hstep : (q - 1) * c = q * c - c := by ring
  have hmul : (q : ℚ) * (c : ℚ) = ((q * c : ℤ) : ℚ) := by push_cast; rfl
  have hsub : (q : ℚ) * (c : ℚ) - (c : ℚ) = (((q - 1) * c : ℤ) : ℚ) := by push_cast; ring
  rw [hsub, hmul]
  exact ⟨truncate_intCast (by omega) (by omega), truncate_intCast (by omega) (by omega)⟩

/-- The western edge of a wide bucket is found as in exact arithmetic. -/
theorem wideLon_sixteenths {c : ℤ} (h : Sixteenths x k) (h0 : -2880 ≤ k) (h1 : k < 2880)
    (hspan : Denotes span c) (hc : 2 ≤ c) (hc' : c ≤ 12) :
    wideLon x span = wideLon ((k : ℚ) / 16) (c : ℚ) := by
  have hsign : (0 : Float) ≤ x ↔ (0 : ℚ) ≤ (k : ℚ) / 16 := by
    rw [sixteenths_zero.le_iff h, le_div_iff₀ (by norm_num)]
    norm_num
  obtain ⟨q, hq⟩ := exists_isQuotient (show 0 < c by omega) (k / 16)
  obtain ⟨q', hq'⟩ := exists_isQuotient (show 0 < c by omega) (k / 16 + 1)
  obtain ⟨hm0, hm1⟩ := hq.mul_mem (by omega) (by omega) (by omega)
  obtain ⟨hm0', hm1'⟩ := hq'.mul_mem (by omega) (by omega) (by omega)
  unfold wideLon
  dsimp only
  rw [floorDegree_sixteenths h h0 h1, floorDegree_div_sixteen h0 h1,
    truncate_div_float hspan hc hc' (by omega) (by omega) hq,
    truncate_div_float hspan hc hc' (by omega) (by omega) hq',
    truncate_div (by omega) (by omega) (by omega) hq,
    truncate_div (by omega) (by omega) (by omega) hq',
    (truncate_mul_spec hspan hc hc' hm0 hm1).1, (truncate_mul_spec hspan hc hc' hm0' hm1').2,
    (truncate_mul_exact hc hc' hm0 hm1).1, (truncate_mul_exact hc hc' hm0' hm1').2]
  exact if_congr hsign rfl rfl

/-! ## Latitudes -/

/-- A double and a number that lie in one row, at latitudes with buckets of one width. -/
structure SameRow (lat : Float) (q : ℚ) : Prop where
  span : Denotes (bucketSpan lat) (bucketSpan q)
  degree : floorDegree lat = floorDegree q
  row : eighth (truncate ((lat - ((floorDegree lat : ℤ) : Float)) * 8))
    = eighth (truncate ((q - (floorDegree q : ℚ)) * 8))

/-- A latitude on the grid lies in one row with its number. -/
theorem sameRow_sixteenths (h : Sixteenths x k) (h0 : -2880 ≤ k) (h1 : k < 2880) :
    SameRow x ((k : ℚ) / 16) := by
  have height : Denotes (8 : Float) (8 : ℤ) := denotes_literal (k := 8) (by norm_num)
  refine ⟨denotes_bucketSpan h, ?_, ?_⟩
  · rw [floorDegree_sixteenths h h0 h1, floorDegree_div_sixteen h0 h1]
  · have hprod := sixteenths_mul (k := k % 16 * 8) (sixteenths_beyond_degree h h0 h1) height
      (by push_cast; ring) (by rw [abs_lt]; omega)
    rw [Denotes.truncate_eq hprod, div_sixteen_beyond_degree h0 h1]
    congr 2
    push_cast
    ring

/-- The latitudes that stand for the north pole lie in one row. -/
theorem sameRow_poleLimit : SameRow poleLimit poleLimit := by
  obtain ⟨q, hq, hlow, hhigh⟩ := denotes_poleLimit
  have hspan := denotes_bucketSpan hq
  have hrow : rowOf q = 1439 := rowOf_eq (by unfold rowSouth; push_cast; linarith)
    (by unfold rowSouth; push_cast; linarith)
  have hrow' : rowOf poleLimit = 1439 := by decide +kernel
  rw [bucketSpan_eq, hrow, ← hrow', ← bucketSpan_eq] at hspan
  exact ⟨hspan, by decide +kernel, by decide +kernel⟩

/-- The latitudes that stand for the south pole lie in one row. -/
theorem sameRow_neg_poleLimit : SameRow (-poleLimit) (-poleLimit) := by
  obtain ⟨q, hq, hlow, hhigh⟩ := denotes_poleLimit
  have hspan := denotes_bucketSpan hq.neg
  have hrow : rowOf (-q) = 0 := rowOf_eq (by unfold rowSouth; push_cast; linarith)
    (by unfold rowSouth; push_cast; linarith)
  have hrow' : rowOf (-poleLimit) = 0 := by decide +kernel
  rw [bucketSpan_eq, hrow, ← hrow', ← bucketSpan_eq] at hspan
  exact ⟨hspan, by decide +kernel, by decide +kernel⟩

section Between

variable {α : Type} [Scalar α] {low high value : α}

/-- A number between two others stays as it is. -/
theorem between_of_mem (hlow : ¬ value < low) (hhigh : ¬ high < value) :
    between low high value = value := by
  unfold between
  dsimp only
  rw [if_neg hlow, if_neg hhigh]

/-- A number below is moved up. -/
theorem between_of_lt (hlow : value < low) (horder : ¬ high < low) :
    between low high value = low := by
  unfold between
  dsimp only
  rw [if_pos hlow, if_neg horder]

/-- A number above is moved down. -/
theorem between_of_gt (hlow : ¬ value < low) (hhigh : high < value) :
    between low high value = high := by
  unfold between
  dsimp only
  rw [if_neg hlow, if_pos hhigh]

end Between

/-- The latitudes that a step looks up, on doubles and in exact arithmetic. -/
structure StepRow (lat : Float) (q : ℚ) : Prop where
  sameRow : SameRow lat q
  kept : between (-90) poleLimit lat = lat
  kept_exact : between (-90) poleLimit q = q

/-- The south pole is south of the latitudes that stand for the poles, and these are in order. -/
theorem poleLimits_order :
    ¬ (poleLimit : Float) < -poleLimit ∧ ¬ (-poleLimit : Float) < -90
      ∧ ¬ (poleLimit : Float) < -90 := by
  obtain ⟨pole, hpole, hlow, hhigh⟩ := denotes_poleLimit
  have hsouth : Denotes (-90 : Float) (-90) := (denotes_literal (k := 90) (by norm_num)).neg
  exact ⟨mt (hpole.lt_iff hpole.neg).1 (by linarith), mt (hpole.neg.lt_iff hsouth).1 (by linarith),
    mt (hpole.lt_iff hsouth).1 (by linarith)⟩

/-- The latitudes that stand for the north pole. -/
theorem stepRow_poleLimit : StepRow poleLimit poleLimit := by
  obtain ⟨-, -, hnorth⟩ := poleLimits_order
  obtain ⟨pole, hpole, -, -⟩ := denotes_poleLimit
  exact ⟨sameRow_poleLimit, between_of_mem hnorth (mt (hpole.lt_iff hpole).1 (lt_irrefl pole)),
    between_of_mem (not_lt.2 le_poleLimit) (lt_irrefl _)⟩

/-- The latitudes that stand for the south pole. -/
theorem stepRow_neg_poleLimit : StepRow (-poleLimit) (-poleLimit) := by
  have hexact := poleLimit_eq
  obtain ⟨horder, hsouth, -⟩ := poleLimits_order
  exact ⟨sameRow_neg_poleLimit, between_of_mem hsouth horder,
    between_of_mem (not_lt.2 (by linarith)) (not_lt.2 (by linarith))⟩

/-- The latitude that a step from the centre of a row to that of another looks up, or the one that
stands for the pole that it passes. -/
theorem stepRow_between (h : Sixteenths x k) (hodd : k % 2 = 1) :
    StepRow (between (-poleLimit) poleLimit x) (between (-poleLimit) poleLimit ((k : ℚ) / 16)) := by
  have hexact := poleLimit_eq
  obtain ⟨pole, hpole, hlow, hhigh⟩ := denotes_poleLimit
  have horder := poleLimits_order.1
  have horderq : ¬ (poleLimit : ℚ) < -poleLimit := not_lt.2 (by linarith)
  rcases (show k ≤ -1441 ∨ 1441 ≤ k ∨ (-1439 ≤ k ∧ k ≤ 1439) by omega) with hk | hk | ⟨hk, hk'⟩
  · have hkq : (k : ℚ) ≤ -1441 := by exact_mod_cast hk
    rw [between_of_lt ((Denotes.lt_iff h hpole.neg).2 (by linarith)) horder,
      between_of_lt (show (k : ℚ) / 16 < -poleLimit by linarith) horderq]
    exact stepRow_neg_poleLimit
  · have hkq : (1441 : ℚ) ≤ k := by exact_mod_cast hk
    rw [between_of_gt (mt (Denotes.lt_iff h hpole.neg).1 (by linarith))
        ((hpole.lt_iff h).2 (by linarith)),
      between_of_gt (show ¬ (k : ℚ) / 16 < -poleLimit from not_lt.2 (by linarith))
        (show poleLimit < (k : ℚ) / 16 by linarith)]
    exact stepRow_poleLimit
  · have hkq : (-1439 : ℚ) ≤ k := by exact_mod_cast hk
    have hkq' : (k : ℚ) ≤ 1439 := by exact_mod_cast hk'
    have hsouth : Denotes (-90 : Float) (-90) := (denotes_literal (k := 90) (by norm_num)).neg
    have hbelow : ¬ (poleLimit : Float) < x := mt (hpole.lt_iff h).1 (by linarith)
    have hbelowq : ¬ poleLimit < (k : ℚ) / 16 := not_lt.2 (by linarith)
    rw [between_of_mem (mt (Denotes.lt_iff h hpole.neg).1 (by linarith)) hbelow,
      between_of_mem (show ¬ (k : ℚ) / 16 < -poleLimit from not_lt.2 (by linarith)) hbelowq]
    exact ⟨sameRow_sixteenths h (by omega) (by omega),
      between_of_mem (mt (Denotes.lt_iff h hsouth).1 (by linarith)) hbelow,
      between_of_mem (show ¬ (k : ℚ) / 16 < -90 from not_lt.2 (by linarith)) hbelowq⟩

/-! ## Lookups -/

/-- A lookup on the grid is run as in exact arithmetic. -/
theorem containing_sixteenths {lat : Float} {q : ℚ} (hlon : Sixteenths x k) (hk : |k| < 2 ^ 52)
    (hlat : SameRow (between (-90) poleLimit lat) (between (-90) poleLimit q)) :
    containing x lat = containing ((k : ℚ) / 16) q := by
  have hone : Denotes (1 : Float) 1 := denotes_literal (k := 1) (by norm_num)
  obtain ⟨h0, h1⟩ := normalSixteenths_mem k
  have hnormal := hlon.normalizeLon hk
  have hnarrow := hlat.span.le_iff hone
  have hdegree : floorDegree (normalizeLon x) = floorDegree (normalizeLon ((k : ℚ) / 16)) := by
    rw [normalizeLon_div_sixteen, floorDegree_sixteenths hnormal h0 h1,
      floorDegree_div_sixteen h0 h1]
  have hspan := hlat.span
  rw [bucketSpan_eq] at hspan
  by_cases hwide : bucketSpan (between (-90) poleLimit q) ≤ 1
  · have hunits := (bucketSpan_le_one_iff _).1 hwide
    obtain ⟨j, hj, hpow⟩ := exists_mul_two_pow hunits
    have hpart : (rowUnits (rowOf (between (-90) poleLimit q)) : ℚ) / 8 = 1 / 2 ^ j := by
      have : (rowUnits (rowOf (between (-90) poleLimit q)) : ℚ) * 2 ^ j = 8 := by
        exact_mod_cast hpow
      rw [div_eq_div_iff (by norm_num) (by positivity), this, one_mul]
    have hcolumn := truncate_column hnormal h0 h1 (hpart ▸ hspan) hj
    rw [← hpart, ← bucketSpan_eq, ← normalizeLon_div_sixteen] at hcolumn
    refine (Bucket.mk.injEq ..).mpr ⟨?_, hlat.degree, ?_, hlat.row⟩
    · exact (if_pos (hnarrow.2 hwide)).trans (hdegree.trans (if_pos hwide).symm)
    · exact (if_pos (hnarrow.2 hwide)).trans ((congrArg eighth hcolumn).trans (if_pos hwide).symm)
  · have hunits := not_le.1 (mt (bucketSpan_le_one_iff _).2 hwide)
    obtain ⟨c, hc, hcases⟩ := rowUnits_wide hunits
    have hwidth : (rowUnits (rowOf (between (-90) poleLimit q)) : ℚ) / 8 = c := by
      rw [hc]
      push_cast
      ring
    rw [hwidth] at hspan
    have hwest := wideLon_sixteenths hnormal h0 h1 hspan (by omega) (by omega)
    rw [← hwidth, ← bucketSpan_eq, ← normalizeLon_div_sixteen] at hwest
    have hfloat := mt hnarrow.1 hwide
    refine (Bucket.mk.injEq ..).mpr ⟨?_, hlat.degree, ?_, hlat.row⟩
    · exact (if_neg hfloat).trans (hwest.trans (if_neg hwide).symm)
    · exact (if_neg hfloat).trans (if_neg hwide).symm

/-! ## Centres -/

variable {b : Bucket}

/-- The latitude of a centre, in sixteenths of a degree. -/
def centerSixteenths (b : Bucket) : ℤ :=
  16 * b.lat + 2 * (b.y : ℕ) + 1

/-- The latitude of a centre in exact arithmetic. -/
theorem centerLat_eq_sixteenths (b : Bucket) :
    (b.centerLat : ℚ) = (b.centerSixteenths : ℚ) / 16 := by
  rw [centerLat_eq]
  unfold centerSixteenths
  push_cast
  ring

/-- The latitude of a centre on doubles. -/
theorem sixteenths_centerLat (h : b.OnGlobe) :
    Sixteenths (b.centerLat : Float) b.centerSixteenths := by
  obtain ⟨-, -, hlat0, hlat1⟩ := h
  have hy := b.y.isLt
  have height : Denotes (8 : Float) (8 : ℕ) := denotes_literal (k := 8) (by norm_num)
  have htwo : Denotes (2 : Float) (2 : ℕ) := denotes_literal (k := 2) (by norm_num)
  have hpart : Sixteenths (ofNat b.y / 8) (2 * (b.y : ℕ)) :=
    sixteenths_div (denotes_intCast (k := (b.y : ℕ)) (by rw [abs_lt]; omega)) height (by norm_num)
      (by push_cast; ring) (by rw [abs_lt]; omega)
  have hhalf : Sixteenths (bucketHeight / 2) 1 :=
    sixteenths_div denotes_narrow.2.2 htwo (by norm_num) (by norm_num) (by norm_num)
  exact ((sixteenths_intCast (by rw [abs_lt]; omega)).add hpart (by rw [abs_lt]; omega)).add hhalf
    (by rw [abs_lt]; omega)

theorem denotes_width (h : b.OnGlobe) : Denotes (b.width : Float) (b.width : ℚ) := by
  unfold width
  rw [centerLat_eq_sixteenths]
  exact denotes_bucketSpan (sixteenths_centerLat h)

/-- The longitude of a centre lies on the grid, and doubles hold it. -/
theorem exists_sixteenths_centerLon (h : b.OnGlobe) :
    ∃ c : ℤ, |c| < 2 ^ 20 ∧ Sixteenths (b.centerLon : Float) c ∧ (b.centerLon : ℚ) = (c : ℚ) / 16 := by
  have hlon0 := h.le_lon
  have hlon1 := h.lon_le
  have hx := b.x.isLt
  have hone : Denotes (1 : Float) 1 := denotes_literal (k := 1) (by norm_num)
  have htwo : Denotes (2 : Float) (2 : ℕ) := denotes_literal (k := 2) (by norm_num)
  have hw := denotes_width h
  have hnarrow := hone.le_iff hw
  rw [centerLon_eq]
  rw [width_eq] at hw hnarrow ⊢
  have hpos := rowUnits_pos (8 * (b.lat + 90))
  have hle := rowUnits_le (8 * (b.lat + 90))
  generalize rowUnits (8 * (b.lat + 90)) = u at *
  have hhalf : Sixteenths ((b.width : Float) / 2) u :=
    sixteenths_div hw htwo (by norm_num) (by push_cast; ring) (by rw [abs_lt]; omega)
  have hlon := sixteenths_intCast (k := b.lon) (by rw [abs_lt]; omega)
  by_cases hwide : (1 : ℚ) ≤ (u : ℚ) / 8
  · refine ⟨16 * b.lon + u, by rw [abs_lt]; omega, ?_, ?_⟩
    · exact (congrArg (Sixteenths · _) (if_pos (hnarrow.2 hwide))).mpr
        (hlon.add hhalf (by rw [abs_lt]; omega))
    · rw [if_pos hwide]
      push_cast
      ring
  · have hxu : (b.x : ℕ) * u ≤ 7 * 96 := by nlinarith
    have hxu0 : 0 ≤ (b.x : ℕ) * u := by positivity
    have hpart : Sixteenths (ofNat b.x * (b.width : Float)) (2 * ((b.x : ℕ) * u)) :=
      sixteenths_mul (denotes_intCast (k := (b.x : ℕ)) (by rw [abs_lt]; omega)) hw
        (by push_cast; ring) (by rw [abs_lt]; omega)
    refine ⟨16 * b.lon + 2 * ((b.x : ℕ) * u) + u, by rw [abs_lt]; omega, ?_, ?_⟩
    · exact (congrArg (Sixteenths · _) (if_neg (mt hnarrow.1 hwide))).mpr
        ((hlon.add hpart (by rw [abs_lt]; omega)).add hhalf (by rw [abs_lt]; omega))
    · rw [if_neg hwide]
      push_cast
      ring

/-! ## Steps -/

/-- The latitude some rows north of a centre. -/
theorem sixteenths_lat_step (h : b.OnGlobe) {rows : ℤ} (hrows : Word.fits32 rows = true) :
    Sixteenths ((b.centerLat : Float) + (rows : Float) * bucketHeight)
        (b.centerSixteenths + 2 * rows)
      ∧ (b.centerLat : ℚ) + (rows : ℚ) * bucketHeight
        = ((b.centerSixteenths + 2 * rows : ℤ) : ℚ) / 16 := by
  obtain ⟨hrows0, hrows1⟩ := of_decide_eq_true hrows
  have hlat0 := h.le_lat
  have hlat1 := h.lat_le
  have hy := b.y.isLt
  have hheight : Sixteenths ((rows : Float) * bucketHeight) (2 * rows) :=
    sixteenths_mul (denotes_intCast (by rw [abs_lt]; omega)) denotes_narrow.2.2
      (by push_cast; ring) (by rw [abs_lt]; omega)
  constructor
  · refine (sixteenths_centerLat h).add hheight ?_
    unfold centerSixteenths
    rw [abs_lt]
    omega
  · rw [centerLat_eq_sixteenths, bucketHeight_eq]
    push_cast
    ring

/-- The longitude some widths east of a centre. -/
theorem exists_sixteenths_lon_step (h : b.OnGlobe) {columns u : ℤ}
    (hcolumns : Word.fits32 columns = true) (hu0 : 0 < u) (hu1 : u ≤ 96)
    (hspan : Denotes span ((u : ℚ) / 8)) :
    ∃ c : ℤ, |c| < 2 ^ 52 ∧ Sixteenths ((b.centerLon : Float) + (columns : Float) * span) c
      ∧ (b.centerLon : ℚ) + (columns : ℚ) * ((u : ℚ) / 8) = (c : ℚ) / 16 := by
  obtain ⟨hcolumns0, hcolumns1⟩ := of_decide_eq_true hcolumns
  obtain ⟨c, hc, hcenter, hcenterq⟩ := exists_sixteenths_centerLon h
  obtain ⟨hc0, hc1⟩ := abs_lt.1 hc
  have hbound : |2 * (columns * u)| < 2 ^ 40 := by
    rw [abs_lt]
    constructor <;> nlinarith
  obtain ⟨hbound0, hbound1⟩ := abs_lt.1 hbound
  have hway := sixteenths_mul (k := 2 * (columns * u))
    (denotes_intCast (k := columns) (by rw [abs_lt]; omega)) hspan (by push_cast; ring)
    (by rw [abs_lt]; omega)
  refine ⟨c + 2 * (columns * u), by rw [abs_lt]; omega, hcenter.add hway (by rw [abs_lt]; omega), ?_⟩
  rw [hcenterq]
  push_cast
  ring

/-- A step by numbers of columns and rows that fit into words of 32 bits is run on doubles as in exact
arithmetic. -/
theorem sibling_float (h : b.OnGlobe) {columns rows : ℤ} (hcolumns : Word.fits32 columns = true)
    (hrows : Word.fits32 rows = true) :
    b.sibling Float columns rows = b.sibling ℚ columns rows := by
  -- the row that is looked up, and how wide its buckets are
  obtain ⟨hlat, hlatq⟩ := sixteenths_lat_step h hrows
  obtain ⟨hrow, hkept, hkeptq⟩ := stepRow_between hlat (by unfold centerSixteenths; omega)
  rw [← hlatq] at hrow hkeptq
  have hspanq := bucketSpan_eq
    (between (-poleLimit) poleLimit ((b.centerLat : ℚ) + (rows : ℚ) * bucketHeight))
  -- the longitude, as many of these widths away
  obtain ⟨c, hc, hlon, hlonq⟩ := exists_sixteenths_lon_step h hcolumns (rowUnits_pos _)
    (rowUnits_le _) (hspanq ▸ hrow.span)
  obtain ⟨hnormal0, hnormal1⟩ := normalSixteenths_mem c
  have hfound := containing_sixteenths (hlon.normalizeLon hc) (by rw [abs_lt]; omega)
    (show SameRow (between (-90) poleLimit _) (between (-90) poleLimit _) by rwa [hkept, hkeptq])
  rw [← normalizeLon_div_sixteen, ← hlonq, ← hspanq] at hfound
  exact hfound

end Orthomosaic.Bucket
