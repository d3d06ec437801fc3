import Orthomosaic.Proofs.Bucket.Place
import Orthomosaic.Proofs.Longitude
import Orthomosaic.Proofs.Scalar.Binary64

/-!
# Lookups on doubles

`Bucket.containing` is run on doubles, and every step of it but the choice of the band rounds. What
survives of the exact lookup is stated here part by part: a longitude is normalised into
`[-180, 180)`, the width is that of the band, a whole degree is the floor or, below zero, the one
above it (`floorDegree_spec`), the column stays within the degree (`eighth_lt`) and a wide bucket
starts at a multiple of its width (`wideLon_spec`).

The reason in each case is that rounding passes no multiple of a power of two over, and that the
part of a degree above a whole degree keeps a distance of `2 ^ -53` from the next one.
-/

namespace Orthomosaic.Bucket

open Scalar
open Binary64 hiding truncate turnPart nearest

variable {x span : Float} {q : ℚ}

/-! ## Bringing coordinates into range -/

/-- Taking 180 degrees off what is left of a turn gives a longitude in `[-180, 180)`. -/
theorem wrapped_spec {t : Float} {r : ℚ} (ht : Denotes t r) (h0 : 0 ≤ r) (h1 : r ≤ 360) :
    ∃ q, Denotes (if 180 ≤ t - 180 then t - 180 - 360 else t - 180) q ∧ -180 ≤ q ∧ q < 180 := by
  have hturn : Denotes (360 : Float) 360 := denotes_ofNat (k := 360) (by norm_num)
  have hhalf : Denotes (180 : Float) 180 := denotes_ofNat (k := 180) (by norm_num)
  obtain ⟨q, hq, hside⟩ := ht.sub hhalf (n := 8) (by rw [abs_lt]; constructor <;> linarith)
    (by norm_num) (by norm_num)
  have hlow : ((-180 : ℤ) : ℚ) ≤ q := hside.int_le (by norm_num) (by push_cast; linarith)
  have hhigh : q ≤ (180 : ℤ) := hside.le_int (by norm_num) (by push_cast; linarith)
  push_cast at hlow hhigh
  by_cases hfull : 180 ≤ t - 180
  · -- a whole turn is left over only after rounding up
    have heq : q = 180 := le_antisymm hhigh ((hhalf.le_iff hq).1 hfull)
    have hback := hq.sub hturn (n := 9) (by rw [heq]; norm_num) (by norm_num) (by norm_num)
    have hvalue : q - 360 = (-180 : ℤ) := by
      rw [heq]
      norm_num
    rw [hvalue] at hback
    rw [if_pos hfull]
    exact ⟨_, hback.denotes_int (by norm_num), by norm_num, by norm_num⟩
  · rw [if_neg hfull]
    exact ⟨q, hq, hlow, not_le.1 (mt (hhalf.le_iff hq).2 hfull)⟩

/-- A normalised longitude is in `[-180, 180)`, if it is a number. -/
theorem normalizeLon_spec (lon : Float) :
    normalizeLon lon = nan ∨ ∃ q, Denotes (normalizeLon lon) q ∧ -180 ≤ q ∧ q < 180 := by
  rcases turnPart_spec (lon + 180) with hnan | ⟨r, hr, hlow, hhigh⟩
  · left
    exact (congrArg (fun t : Float => if 180 ≤ t - 180 then t - 180 - 360 else t - 180) hnan).trans
      rfl
  · exact .inr (wrapped_spec hr hlow hhigh)

/-- The pole limit is in the northern half of the last row. -/
theorem denotes_poleLimit : ∃ q, Denotes (poleLimit : Float) q ∧ 1439 / 16 < q ∧ q < 90 := by
  have hunpack : (poleLimit : Float).toModel.unpack
      = .finite .positive 6333186272302318 (-46) (by decide) := rfl
  refine ⟨_, denotes_of_unpack hunpack, ?_, ?_⟩
  all_goals
    unfold signed
    norm_num

/-- A latitude is held in `[-90, 90)`, if it is a number. -/
theorem between_spec (lat : Float) :
    between (-90) poleLimit lat = nan
      ∨ ∃ q, Denotes (between (-90) poleLimit lat) q ∧ -90 ≤ q ∧ q < 90 := by
  have hsouth : Denotes (-90 : Float) (-90) := (denotes_literal (k := 90) (by norm_num)).neg
  obtain ⟨pole, hpole, hpole0, hpole1⟩ := denotes_poleLimit
  have horder : ¬ (poleLimit : Float) < -90 := mt (hpole.lt_iff hsouth).1 (by linarith)
  unfold between
  dsimp only
  rcases nan_or_infinity_or_denotes lat with rfl | ⟨sign, hlat⟩ | ⟨q, hq⟩
  · exact .inl rfl
  · right
    cases sign with
    | negative =>
      rw [if_pos ((infinity_lt_iff hlat hsouth).2 rfl), if_neg horder]
      exact ⟨-90, hsouth, by norm_num, by norm_num⟩
    | positive =>
      rw [if_neg (mt (infinity_lt_iff hlat hsouth).1 nofun),
        if_pos ((lt_infinity_iff hlat hpole).2 rfl)]
      exact ⟨pole, hpole, by linarith, hpole1⟩
  · right
    by_cases hlow : lat < -90
    · rw [if_pos hlow, if_neg horder]
      exact ⟨-90, hsouth, by norm_num, by norm_num⟩
    · rw [if_neg hlow]
      by_cases hhigh : (poleLimit : Float) < lat
      · rw [if_pos hhigh]
        exact ⟨pole, hpole, by linarith, hpole1⟩
      · rw [if_neg hhigh]
        exact ⟨q, hq, not_lt.1 (mt (hq.lt_iff hsouth).2 hlow),
          (not_lt.1 (mt (hpole.lt_iff hq).2 hhigh)).trans_lt hpole1⟩

/-! ## Widths -/

/-- One branch on doubles and on the numbers they stand for. -/
theorem denotes_ite {P P' : Prop} [Decidable P] [Decidable P'] {a b : Float} {a' b' : ℚ}
    (h : P ↔ P') (ha : Denotes a a') (hb : Denotes b b') :
    Denotes (if P then a else b) (if P' then a' else b') := by
  by_cases hP : P
  · rwa [if_pos hP, if_pos (h.1 hP)]
  · rwa [if_neg hP, if_neg (mt h.2 hP)]

/-- The widths below a degree. -/
theorem denotes_narrow :
    Denotes (0.5 : Float) 0.5 ∧ Denotes (0.25 : Float) 0.25 ∧ Denotes (0.125 : Float) 0.125 := by
  have hpart : ∀ {x : Float} {e : ℤ} {v : ℚ},
      x.toModel.unpack = .finite .positive (2 ^ 52) e (by decide) → v = (2 ^ 52 : ℕ) * 2 ^ e →
        Denotes x v := by
    intro x e v hx hv
    rw [hv]
    exact denotes_of_unpack hx
  refine ⟨hpart (e := -53) rfl ?_, hpart (e := -54) rfl ?_, hpart (e := -55) rfl ?_⟩ <;> norm_num

/-- The width of the buckets at a latitude is that at its number. -/
theorem denotes_bucketSpan (h : Denotes x q) : Denotes (bucketSpan x) (bucketSpan q) := by
  obtain ⟨hhalf, hquarter, heighth⟩ := denotes_narrow
  have hwhole : ∀ k : ℕ, k < 2 ^ 53 → Denotes (@OfNat.ofNat Float k (instOfNat k))
      (@OfNat.ofNat ℚ k (instOfNat k)) := by
    intro k hk
    rw [literal_eq]
    exact denotes_literal hk
  have hnorth : ∀ k : ℕ, k < 2 ^ 53 →
      (@OfNat.ofNat Float k (instOfNat k) ≤ x ↔ @OfNat.ofNat ℚ k (instOfNat k) ≤ q) :=
    fun k hk => (hwhole k hk).le_iff h
  have hsouth : ∀ k : ℕ, k < 2 ^ 53 →
      (-@OfNat.ofNat Float k (instOfNat k) ≤ x ↔ -@OfNat.ofNat ℚ k (instOfNat k) ≤ q) :=
    fun k hk => (hwhole k hk).neg.le_iff h
  unfold bucketSpan
  refine denotes_ite (hnorth 89 (by norm_num)) (hwhole 12 (by norm_num)) ?_
  refine denotes_ite (hnorth 86 (by norm_num)) (hwhole 4 (by norm_num)) ?_
  refine denotes_ite (hnorth 83 (by norm_num)) (hwhole 2 (by norm_num)) ?_
  refine denotes_ite (hnorth 76 (by norm_num)) (hwhole 1 (by norm_num)) ?_
  refine denotes_ite (hnorth 62 (by norm_num)) hhalf ?_
  refine denotes_ite (hnorth 22 (by norm_num)) hquarter ?_
  refine denotes_ite (hsouth 22 (by norm_num)) heighth ?_
  refine denotes_ite (hsouth 62 (by norm_num)) hquarter ?_
  refine denotes_ite (hsouth 76 (by norm_num)) hhalf ?_
  refine denotes_ite (hsouth 83 (by norm_num)) (hwhole 1 (by norm_num)) ?_
  refine denotes_ite (hsouth 86 (by norm_num)) (hwhole 2 (by norm_num)) ?_
  exact denotes_ite (hsouth 89 (by norm_num)) (hwhole 4 (by norm_num)) (hwhole 12 (by norm_num))

/-! ## Whole degrees -/

/-- A double keeps a distance from the whole number above it. -/
theorem fract_le (h : Denotes x q) (h0 : 0 ≤ q) : q - ⌊q⌋ ≤ 1 - 1 / 2 ^ 53 := by
  have hfloor := Int.lt_floor_add_one q
  rcases h.unpack_cases with ⟨-, -, rfl⟩ | ⟨sign, m, e, hm, -, hq, hc⟩
  · norm_num
  · have hpos : (0 : ℚ) < m * 2 ^ e := by positivity
    have hvalue : q = m * 2 ^ e := by
      cases sign with
      | positive => exact hq
      | negative => exact absurd (hq.trans_lt (neg_neg_of_pos hpos)) (not_lt.2 h0)
    rcases le_or_gt (-53) e with he | he
    · -- a multiple of `2 ^ -53`
      obtain ⟨k, hk⟩ := Int.le.dest he
      have hscale : q * 2 ^ 53 = (m * 2 ^ k : ℕ) := by
        rw [hvalue, ← hk, zpow_add₀ (by norm_num), zpow_natCast]
        push_cast
        norm_num
        ring
      have hlt : ((m * 2 ^ k : ℕ) : ℚ) < ((⌊q⌋ + 1) * 2 ^ 53 : ℤ) := by
        rw [← hscale]
        push_cast
        exact mul_lt_mul_of_pos_right hfloor (by norm_num)
      have hle : (m * 2 ^ k : ℕ) + 1 ≤ (⌊q⌋ + 1) * 2 ^ 53 := by exact_mod_cast hlt
      have hle' : ((m * 2 ^ k : ℕ) : ℚ) + 1 ≤ (⌊q⌋ + 1) * 2 ^ 53 := by exact_mod_cast hle
      rw [← hscale] at hle'
      linarith
    · -- at most a half
      have hm' : (m : ℚ) ≤ 2 ^ 53 := by exact_mod_cast hc.m_lt.le
      have hpow : (2 : ℚ) ^ e ≤ 2 ^ (-54 : ℤ) := zpow_le_zpow_right₀ (by norm_num) (by omega)
      have hhalf : q ≤ 1 / 2 := by
        calc
          q = m * 2 ^ e := hvalue
          _ ≤ 2 ^ 53 * 2 ^ (-54 : ℤ) := mul_le_mul hm' hpow (by positivity) (by norm_num)
          _ = 1 / 2 := by norm_num
      have hnonneg : (0 : ℚ) ≤ ⌊q⌋ := by exact_mod_cast Int.floor_nonneg.2 h0
      linarith [show (1 : ℚ) / 2 ≤ 1 - 1 / 2 ^ 53 by norm_num]

/-- The snapping tolerance is above `2 ^ -24`, but less than a sixteenth of a degree. -/
theorem denotes_snapTolerance :
    ∃ q, Denotes (snapTolerance : Float) q ∧ 1 / 2 ^ 24 < q ∧ q < 1 / 16 := by
  have hunpack : (snapTolerance : Float).toModel.unpack
      = .finite .positive 7555786372591432 (-76) (by decide) := rfl
  refine ⟨_, denotes_of_unpack hunpack, ?_, ?_⟩
  all_goals
    unfold signed
    norm_num

/-- A negative number that is not taken as the whole degree above it lies clearly below it. -/
theorem le_ceil_sub {r : ℚ} {tolerance : ℚ} (hside : SameSide (-53) (q - ⌈q⌉) r)
    (htol : 1 / 2 ^ 24 < tolerance) (hfar : tolerance ≤ |r|) : q ≤ ⌈q⌉ - 1 / 2 ^ 24 := by
  have hr : r ≤ 0 := by
    exact_mod_cast hside.le_int (by norm_num) (n := 0) (by push_cast; linarith [Int.le_ceil q])
  rw [abs_of_nonpos hr] at hfar
  by_contra hnear
  have hgrid : ((-2 ^ 29 : ℤ) : ℚ) * 2 ^ (-53 : ℤ) = -(1 / 2 ^ 24) := by norm_num
  have hkept := (hside (-2 ^ 29)).2 (by rw [hgrid]; linarith)
  rw [hgrid] at hkept
  linarith

theorem floorDegree_of_snap {α : Type} [Scalar α] {x : α}
    (h : 0 ≤ x ∨ magnitude (x - (truncate x : α)) < snapTolerance) : floorDegree x = truncate x :=
  if_pos h

theorem floorDegree_of_not_snap {α : Type} [Scalar α] {x : α}
    (h : ¬ (0 ≤ x ∨ magnitude (x - (truncate x : α)) < snapTolerance)) :
    floorDegree x = truncate x - 1 :=
  if_neg h

/-- The whole degree of a double that is not negative. -/
theorem floorDegree_spec_of_nonneg (h : Denotes x q) (h0 : 0 ≤ q) (h1 : q < 180) :
    floorDegree x = ⌊q⌋ ∧ |q - floorDegree x| ≤ 1 - 1 / 2 ^ 53 := by
  have hzero : Denotes (0 : Float) 0 := denotes_ofNat (k := 0) (by norm_num)
  have hdegree : floorDegree x = ⌊q⌋ :=
    (floorDegree_of_snap (.inl ((hzero.le_iff h).2 h0))).trans
      (h.truncate_eq.trans (truncate_of_nonneg h0 (by linarith)))
  rw [hdegree, abs_of_nonneg (sub_nonneg.2 (Int.floor_le q))]
  exact ⟨rfl, fract_le h h0⟩

/-- The whole degree of a negative double. -/
theorem floorDegree_spec_of_neg (h : Denotes x q) (h0 : -180 ≤ q) (hneg : q < 0) :
    (floorDegree x = ⌊q⌋ ∨ floorDegree x = ⌊q⌋ + 1)
      ∧ |q - floorDegree x| ≤ 1 - 1 / 2 ^ 53 := by
  have hzero : Denotes (0 : Float) 0 := denotes_ofNat (k := 0) (by norm_num)
  obtain ⟨tolerance, htol, hsmall, -⟩ := denotes_snapTolerance
  have hlow := Int.le_ceil q
  have hhigh := Int.ceil_lt_add_one q
  have hkeep := fract_le h.neg (by linarith)
  rw [Int.floor_neg] at hkeep
  push_cast at hkeep
  have hceil0 : -180 ≤ ⌈q⌉ := by exact_mod_cast h0.trans hlow
  have hceil1 : ⌈q⌉ ≤ 0 := Int.ceil_le.2 (by exact_mod_cast hneg.le)
  have hwhole : truncate x = ⌈q⌉ := h.truncate_eq.trans (truncate_of_neg hneg (by linarith))
  have hcast : Denotes ((truncate x : ℤ) : Float) ⌈q⌉ := by
    rw [hwhole]
    refine denotes_intCast (abs_lt.2 ⟨?_, ?_⟩) <;> omega
  obtain ⟨r, hr, hside⟩ := h.sub hcast (n := 0) (by rw [abs_lt]; constructor <;> linarith)
    (by norm_num) (by norm_num)
  by_cases hsnap : magnitude (x - ((truncate x : ℤ) : Float)) < snapTolerance
  · rw [floorDegree_of_snap (.inr hsnap), hwhole]
    refine ⟨?_, ?_⟩
    · have := Int.floor_le_ceil q
      have := Int.ceil_le_floor_add_one q
      omega
    · rw [abs_of_nonpos (by linarith)]
      linarith
  · have hfar := le_ceil_sub hside hsmall (not_lt.1 (mt (hr.magnitude.lt_iff htol).2 hsnap))
    have hfloor : ⌈q⌉ - 1 = ⌊q⌋ := by
      rw [eq_comm, Int.floor_eq_iff]
      push_cast
      constructor <;> linarith [show (0 : ℚ) < 1 / 2 ^ 24 by norm_num]
    have hdegree : floorDegree x = ⌈q⌉ - 1 := by
      rw [← hwhole]
      exact floorDegree_of_not_snap
        (not_or.2 ⟨mt (hzero.le_iff h).1 (not_le.2 hneg), hsnap⟩)
    rw [hdegree]
    refine ⟨.inl hfloor, ?_⟩
    push_cast
    rw [abs_of_nonneg (by linarith)]
    linarith [show (1 : ℚ) / 2 ^ 53 ≤ 1 / 2 ^ 24 by norm_num]

/-- The whole degree of a double is the floor of its number or, below zero, the next one; and the
number is less than a degree away from it. -/
theorem floorDegree_spec (h : Denotes x q) (h0 : -180 ≤ q) (h1 : q < 180) :
    (floorDegree x = ⌊q⌋ ∨ q < 0 ∧ floorDegree x = ⌊q⌋ + 1)
      ∧ |q - floorDegree x| ≤ 1 - 1 / 2 ^ 53 := by
  rcases lt_or_ge q 0 with hneg | hpos
  · obtain ⟨hdegree, hkeep⟩ := floorDegree_spec_of_neg h h0 hneg
    exact ⟨hdegree.imp_right fun heq => ⟨hneg, heq⟩, hkeep⟩
  · obtain ⟨hdegree, hkeep⟩ := floorDegree_spec_of_nonneg h hpos h1
    exact ⟨.inl hdegree, hkeep⟩

/-- Whole degrees stay in the range of a longitude or a latitude. -/
theorem floorDegree_range {n : ℤ} (h : Denotes x q) (hn0 : 0 < n) (hn : n ≤ 180) (h0 : -n ≤ q)
    (h1 : q < n) : -n ≤ floorDegree x ∧ floorDegree x < n := by
  have hnq : (n : ℚ) ≤ 180 := by exact_mod_cast hn
  have hlow : -n ≤ ⌊q⌋ := Int.le_floor.2 (by push_cast; exact h0)
  have hhigh : ⌊q⌋ < n := Int.floor_lt.2 h1
  rcases (floorDegree_spec h (by linarith) (by linarith)).1 with heq | ⟨hneg, heq⟩
  · omega
  · have : ⌊q⌋ < 0 := Int.floor_lt.2 (by exact_mod_cast hneg)
    omega

/-! ## Columns -/

/-- Up to a degree wide, the column of a double is one of those that its degree has. -/
theorem eighth_lt {j : ℕ} (h : Denotes x q) (h0 : -180 ≤ q) (h1 : q < 180)
    (hspan : Denotes span (1 / 2 ^ j)) (hj : j ≤ 3) :
    (eighth (truncate ((x - ((floorDegree x : ℤ) : Float)) / span)) : ℕ) < 2 ^ j := by
  obtain ⟨hlow, hhigh⟩ := floorDegree_range (n := 180) h (by norm_num) le_rfl
    (by push_cast; exact h0) (by push_cast; exact h1)
  have hcast : Denotes ((floorDegree x : ℤ) : Float) (floorDegree x) :=
    denotes_intCast (abs_lt.2 ⟨by omega, by omega⟩)
  obtain ⟨hkeep0, hkeep1⟩ := abs_le.1 (floorDegree_spec h h0 h1).2
  have hpow : (0 : ℚ) < 2 ^ j := by positivity
  -- neither the difference nor the quotient passes the largest double below one over
  have hgrid : ((2 ^ 53 - 1 : ℤ) : ℚ) * 2 ^ (-53 : ℤ) = 1 - 1 / 2 ^ 53 := by norm_num
  have hgrid' : ((-(2 ^ 53 - 1) : ℤ) : ℚ) * 2 ^ (-53 : ℤ) = -(1 - 1 / 2 ^ 53) := by norm_num
  obtain ⟨d, hd, hdside⟩ := h.sub hcast (n := 0)
    (by rw [abs_lt, zpow_zero]; constructor <;> linarith) (by norm_num) (by norm_num)
  have hd1 := (hdside (2 ^ 53 - 1)).1 (hkeep1.trans hgrid.ge)
  have hd0 := (hdside (-(2 ^ 53 - 1))).2 (hgrid'.le.trans hkeep0)
  rw [zero_sub, hgrid] at hd1
  rw [zero_sub, hgrid'] at hd0
  have hscale : ∀ c : ℚ, c * 2 ^ ((j : ℤ) - 53) = c * 2 ^ (-53 : ℤ) * 2 ^ j := by
    intro c
    rw [sub_eq_neg_add, zpow_add₀ (by norm_num), zpow_natCast, mul_assoc]
  obtain ⟨r, hr, hrside⟩ := hd.div hspan (n := j) (by positivity)
    (by rw [div_div_eq_mul_div, div_one, abs_mul, abs_of_pos hpow, zpow_natCast,
          mul_lt_iff_lt_one_left hpow, abs_lt]; constructor <;> linarith)
    (by omega) (by omega)
  rw [div_div_eq_mul_div, div_one] at hrside
  have hr1 := (hrside (2 ^ 53 - 1)).1
    (by rw [hscale, hgrid]; exact mul_le_mul_of_nonneg_right hd1 hpow.le)
  rw [hscale, hgrid] at hr1
  have hlt : (truncate r : ℤ) < (2 ^ j : ℕ) := by
    refine truncate_lt (by positivity) (hr1.trans_lt ?_)
    push_cast
    exact mul_lt_of_lt_one_left hpow (by norm_num)
  rw [hr.truncate_eq]
  have hpos : 0 < 2 ^ j := Nat.pow_pos (by norm_num)
  change min (truncate r).toNat 7 % 8 < 2 ^ j
  omega

/-! ## Wide buckets -/

variable {k c : ℤ}

/-- A quotient of a whole degree by a width that `c` times makes 180 degrees. -/
theorem exists_truncate_div {n : ℤ} (hspan : Denotes span k) (hk : 2 ≤ k) (hk' : k ≤ 12)
    (hc : k * c = 180) (h0 : -180 ≤ n) (h1 : n ≤ 180) :
    -c ≤ truncate ((n : Float) / span) ∧ truncate ((n : Float) / span) ≤ c
      ∧ (n < 180 → truncate ((n : Float) / span) < c) := by
  have hcast : Denotes (n : Float) n := denotes_intCast (abs_lt.2 ⟨by omega, by omega⟩)
  have hkq : (2 : ℚ) ≤ k := by exact_mod_cast hk
  have hkq' : (k : ℚ) ≤ 12 := by exact_mod_cast hk'
  have hcq : (k : ℚ) * c = 180 := by exact_mod_cast hc
  have h0q : (-180 : ℚ) ≤ n := by exact_mod_cast h0
  have h1q : (n : ℚ) ≤ 180 := by exact_mod_cast h1
  have hlow : -(c : ℚ) ≤ n / k := by
    rw [le_div_iff₀ (by linarith)]
    linarith
  have hhigh : (n : ℚ) / k ≤ c := by
    rw [div_le_iff₀ (by linarith)]
    linarith
  have hc90 : (c : ℚ) ≤ 90 := by nlinarith
  have hc0 : 0 < c := by nlinarith
  obtain ⟨r, hr, hside⟩ := hcast.div hspan (n := 7) (by linarith)
    (by rw [abs_lt]; constructor <;> linarith) (by norm_num) (by norm_num)
  rw [hr.truncate_eq]
  refine ⟨le_truncate (by omega) ?_, ?_, fun hless => truncate_lt hc0 ?_⟩
  · exact hside.int_le (by norm_num) (by push_cast; exact hlow)
  · have hle : r ≤ c := hside.le_int (by norm_num) hhigh
    have := truncate_lt (x := r) (n := c + 1) (by omega) (by push_cast; linarith)
    omega
  · -- less than a whole degree short, the quotient is at least a sixteenth short
    have hless' : (n : ℚ) ≤ 179 := by exact_mod_cast Int.lt_add_one_iff.1 hless
    have hgrid : (((16 * c - 1) * 2 ^ 42 : ℤ) : ℚ) * 2 ^ (-46 : ℤ) = c - 1 / 16 := by
      push_cast
      norm_num
      ring
    have hshort : (n : ℚ) / k ≤ c - 1 / 16 := by
      rw [div_le_iff₀ (by linarith)]
      linarith
    have hr := (hside ((16 * c - 1) * 2 ^ 42)).1 (hshort.trans hgrid.ge)
    rw [show (7 : ℤ) - 53 = -46 by norm_num, hgrid] at hr
    linarith

/-- A multiple of a width is found exactly, and so is the multiple below it. -/
theorem truncate_mul_spec {j : ℤ} (hspan : Denotes span k) (hk : 2 ≤ k) (hk' : k ≤ 12)
    (h0 : -180 ≤ j * k) (h1 : j * k ≤ 180) :
    truncate ((j : Float) * span) = j * k ∧ truncate ((j : Float) * span - span) = (j - 1) * k := by
  have hj0 : -180 ≤ j := by nlinarith
  have hj1 : j ≤ 180 := by nlinarith
  have hcast : Denotes (j : Float) j := denotes_intCast (abs_lt.2 ⟨by omega, by omega⟩)
  have hmulq : (j : ℚ) * k = (j * k : ℤ) := by push_cast; rfl
  have hsubq : ((j * k : ℤ) : ℚ) - k = ((j - 1) * k : ℤ) := by push_cast; ring
  have h0q : (-180 : ℚ) ≤ (j * k : ℤ) := by exact_mod_cast h0
  have h1q : ((j * k : ℤ) : ℚ) ≤ 180 := by exact_mod_cast h1
  have hkq : (2 : ℚ) ≤ k := by exact_mod_cast hk
  have hkq' : (k : ℚ) ≤ 12 := by exact_mod_cast hk'
  have hmul := hcast.mul hspan (n := 8) (by rw [hmulq, abs_lt]; constructor <;> linarith)
    (by norm_num) (by norm_num)
  rw [hmulq] at hmul
  have hsub := (hmul.denotes_int (by norm_num)).sub hspan (n := 8)
    (by rw [abs_lt]; constructor <;> linarith) (by norm_num) (by norm_num)
  rw [hsubq] at hsub
  have hstep : (j - 1) * k = j * k - k := by ring
  rw [(hmul.denotes_int (by norm_num)).truncate_eq, (hsub.denotes_int (by norm_num)).truncate_eq]
  exact ⟨truncate_intCast (by omega) (by omega), truncate_intCast (by omega) (by omega)⟩

/-- A bucket wider than a degree starts at a multiple of its width between -180 and 180. -/
theorem wideLon_spec (hspan : Denotes span k) (hk : 2 ≤ k) (hk' : k ≤ 12) (hc : k * c = 180)
    (h0 : -180 ≤ floorDegree x) (h1 : floorDegree x < 180) :
    k ∣ wideLon x span ∧ -180 ≤ wideLon x span ∧ wideLon x span < 180 := by
  have hbounds : ∀ j : ℤ, -c ≤ j → j ≤ c → -180 ≤ j * k ∧ j * k ≤ 180 :=
    fun j hj0 hj1 => ⟨by nlinarith, by nlinarith⟩
  unfold wideLon
  dsimp only
  refine iteInduction (motive := fun n => k ∣ n ∧ -180 ≤ n ∧ n < 180) (fun _ => ?_) fun _ => ?_
  · obtain ⟨hj0, -, hj1⟩ := exists_truncate_div (n := floorDegree x) hspan hk hk' hc h0 h1.le
    have hj1 := hj1 h1
    generalize truncate (((floorDegree x : ℤ) : Float) / span) = j at *
    obtain ⟨hm0, hm1⟩ := hbounds j hj0 hj1.le
    rw [(truncate_mul_spec hspan hk hk' hm0 hm1).1]
    exact ⟨dvd_mul_left k j, hm0, by nlinarith⟩
  · obtain ⟨hj0, hj1, -⟩ :=
      exists_truncate_div (n := floorDegree x + 1) hspan hk hk' hc (by omega) (by omega)
    generalize truncate (((floorDegree x + 1 : ℤ) : Float) / span) = j at *
    obtain ⟨hm0, hm1⟩ := hbounds j hj0 hj1
    rw [(truncate_mul_spec hspan hk hk' hm0 hm1).2]
    have hstep : (j - 1) * k = j * k - k := by ring
    refine ⟨?_, le_max_right _ _, ?_⟩
    · rcases max_choice ((j - 1) * k) (-180) with hmax | hmax <;> rw [hmax]
      · exact dvd_mul_left k (j - 1)
      · exact (dvd_neg.2 (Dvd.intro c hc))
    · omega

end Orthomosaic.Bucket
