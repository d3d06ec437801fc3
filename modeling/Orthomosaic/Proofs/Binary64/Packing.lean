import Mathlib.Algebra.Order.Ring.Nat
import Mathlib.Tactic.Common
import Orthomosaic.Binary64

/-!
# Doubles taken apart and packed

A double that is a number is kept as a mantissa and an exponent in one of the forms that `Canonical`
states: 53 bits of mantissa, or fewer at the least exponent. Taking a double apart gives such a form
(`canonical_of_unpack`), and such a form survives being packed (`unpack_pack_finite`), so proofs
about operations can stay with the forms. What is no number is one double only (`eq_nan`).
-/

namespace Orthomosaic.Binary64

open Float.Model UnpackedFloat

/-- The forms in which numbers other than zero are kept: mantissas of 53 bits, or fewer at the least
exponent. -/
structure Canonical (m : ℕ) (e : ℤ) : Prop where
  m_lt : m < 2 ^ 53
  le_e : -1074 ≤ e
  e_le : e ≤ 971
  normal : 2 ^ 52 ≤ m ∨ e = -1074

/-! ## Components -/

@[simp] theorem ofBitVec_toBitVec (sign : Sign) : Sign.ofBitVec sign.toBitVec = sign := by
  cases sign <;> rfl

/-- The sign of what is packed from components. -/
@[simp] theorem unpackSign_packComponents (spec : Format) (sign : Sign)
    (e : BitVec spec.exponentBits) (m : BitVec spec.mantissaBitsWithoutImplicit) :
    unpackSign (packComponents spec sign e m) = sign.toBitVec := by
  ext i hi
  have h0 : i = 0 := by omega
  subst h0
  unfold unpackSign packComponents
  simp [BitVec.getLsbD_append, BitVec.getElem_append]

theorem toNat_one_append {n : ℕ} (m : BitVec n) : (1#1 ++ m).toNat = 2 ^ n + m.toNat := by
  rw [BitVec.toNat_append, ← Nat.shiftLeft_add_eq_or_of_lt m.isLt]
  simp [Nat.shiftLeft_eq]

theorem binary64_sizes :
    Format.binary64.mantissaBits = 53 ∧ Format.binary64.minExponent = -1074
      ∧ Format.binary64.exponentBias = 1023 := by
  decide

/-! ## Taking apart -/

variable {b : BitVec Format.binary64.numBits} {sign : Sign} {m : ℕ} {e : ℤ}

/-- The form that a double is taken apart into. -/
theorem canonical_of_unpack {hm : 0 < m} (h : unpack .binary64 b = .finite sign m e hm) :
    Canonical m e := by
  obtain ⟨-, -, hbias⟩ := binary64_sizes
  have hmant : (unpackMantissa b).toNat < 2 ^ 52 := (unpackMantissa b).isLt
  have hexp : (unpackExponent b).toNat < 2 ^ 11 := (unpackExponent b).isLt
  unfold UnpackedFloat.unpack at h
  dsimp only at h
  rw [hbias] at h
  by_cases htop : unpackExponent b = -1#_
  · rw [if_pos htop] at h
    by_cases hmant0 : unpackMantissa b = 0#_
    · rw [if_pos hmant0] at h
      cases h
    · rw [if_neg hmant0] at h
      cases h
  rw [if_neg htop] at h
  have hlast : (unpackExponent b).toNat ≠ 2047 := fun h0 => htop (BitVec.eq_of_toNat_eq h0)
  by_cases hzero : unpackExponent b = 0#_
  · rw [if_pos hzero] at h
    by_cases hmant0 : unpackMantissa b = 0#_
    · rw [dif_pos hmant0] at h
      cases h
    · -- a mantissa without the implicit bit, at the least exponent
      rw [dif_neg hmant0] at h
      injection h with _ hm' he'
      have hnone : (unpackExponent b).toNat = 0 := by rw [hzero]; rfl
      exact ⟨by omega, by omega, by omega, .inr (by omega)⟩
  · rw [if_neg hzero] at h
    injection h with _ hm' he'
    rw [toNat_one_append] at hm'
    have hpos : (unpackExponent b).toNat ≠ 0 := fun h0 => hzero (BitVec.eq_of_toNat_eq h0)
    have hbits : (2 : ℕ) ^ Format.binary64.mantissaBitsWithoutImplicit = 2 ^ 52 := rfl
    have hwidth : ((Format.binary64.mantissaBitsWithoutImplicit : ℕ) : ℤ) = 52 := rfl
    rw [hbits] at hm'
    rw [hwidth] at he'
    exact ⟨by omega, by omega, by omega, .inl (by omega)⟩

/-! ## Packing -/

theorem finite_congr (sign : Sign) {m m' : ℕ} {e e' : ℤ} (hm : 0 < m) (hm' : 0 < m')
    (hmant : m = m') (hexp : e = e') : finite sign m e hm = finite sign m' e' hm' := by
  subst hmant hexp
  rfl

/-- Taking components apart that stand for a number with the implicit bit. -/
theorem unpack_packComponents_normal (spec : Format) (sign : Sign)
    {exponent : BitVec spec.exponentBits} {mantissa : BitVec spec.mantissaBitsWithoutImplicit}
    (htop : exponent ≠ -1#_) (hzero : exponent ≠ 0#_) (hpos : 0 < (1#1 ++ mantissa).toNat) :
    unpack spec (packComponents spec sign exponent mantissa)
      = .finite sign (1#1 ++ mantissa).toNat
        ((exponent.toNat : ℤ) - (spec.exponentBias + spec.mantissaBitsWithoutImplicit)) hpos := by
  have hexponent : unpackExponent (packComponents spec sign exponent mantissa) = exponent :=
    unpackExponent_packComponents
  rw [← hexponent] at htop hzero
  unfold UnpackedFloat.unpack
  dsimp only
  rw [if_neg htop, if_neg hzero, unpackSign_packComponents, ofBitVec_toBitVec]
  exact finite_congr sign _ hpos (by rw [unpackMantissa_packComponents]) (by rw [hexponent])

/-- Taking components apart that stand for a number without the implicit bit. -/
theorem unpack_packComponents_subnormal (spec : Format) (sign : Sign)
    {exponent : BitVec spec.exponentBits} {mantissa : BitVec spec.mantissaBitsWithoutImplicit}
    (htop : exponent ≠ -1#_) (hzero : exponent = 0#_) (hmant : mantissa ≠ 0#_)
    (hpos : 0 < mantissa.toNat) :
    unpack spec (packComponents spec sign exponent mantissa)
      = .finite sign mantissa.toNat
        ((exponent.toNat : ℤ) - (spec.exponentBias + spec.mantissaBitsWithoutImplicit) + 1)
        hpos := by
  have hexponent : unpackExponent (packComponents spec sign exponent mantissa) = exponent :=
    unpackExponent_packComponents
  have hmantissa : unpackMantissa (packComponents spec sign exponent mantissa) = mantissa :=
    unpackMantissa_packComponents
  rw [← hexponent] at htop hzero
  rw [← hmantissa] at hmant
  unfold UnpackedFloat.unpack
  dsimp only
  rw [if_neg htop, if_pos hzero, dif_neg hmant, unpackSign_packComponents, ofBitVec_toBitVec]
  exact finite_congr sign _ hpos (by rw [hmantissa]) (by rw [hexponent])

/-- A number with the implicit bit is packed without it. -/
theorem pack_normal (sign : Sign) (hm : 0 < m) {biased : ℕ} (hbiased : (biased : ℤ) = e + 1075)
    (htop : biased ≤ 2046) (hlog : m.log2 + 1 = 53) :
    UnpackedFloat.pack .binary64 (.finite sign m e hm)
      = packComponents .binary64 sign (BitVec.ofNat 11 biased) (BitVec.ofNat 52 m) := by
  obtain ⟨hbits, -, hbias⟩ := binary64_sizes
  have hto : (e + (Format.binary64.exponentBias : ℕ)
      + (Format.binary64.mantissaBitsWithoutImplicit : ℕ)).toNat = biased := by
    rw [hbias]
    change (e + (1023 : ℕ) + (52 : ℕ)).toNat = biased
    omega
  unfold UnpackedFloat.pack
  dsimp only
  rw [hto, hbits, if_neg (by change ¬ 2048 ≤ biased + 1; omega), if_pos hlog]

/-- A number without the implicit bit is packed as it is. -/
theorem pack_subnormal (sign : Sign) (hm : 0 < m) (hlog : ¬ m.log2 + 1 = 53) :
    UnpackedFloat.pack .binary64 (.finite sign m (-1074) hm)
      = packComponents .binary64 sign 0#11 (BitVec.ofNat 52 m) := by
  obtain ⟨hbits, -, hbias⟩ := binary64_sizes
  unfold UnpackedFloat.pack
  dsimp only
  rw [hbias, hbits, if_neg (by decide), if_neg hlog]

/-- A form with 53 bits survives being packed. -/
theorem unpack_pack_normal (sign : Sign) (hm : 0 < m) (h : Canonical m e) (hfull : 2 ^ 52 ≤ m) :
    unpack .binary64 (UnpackedFloat.pack .binary64 (.finite sign m e hm))
      = .finite sign m e hm := by
  have hlt := h.m_lt
  have hle := h.le_e
  have hle' := h.e_le
  have hlog : m.log2 + 1 = 53 := by
    have h52 := (Nat.le_log2 hm.ne').2 hfull
    have h53 := (Nat.log2_lt hm.ne').2 hlt
    omega
  -- the biased exponent, of which neither the least nor the greatest is used
  obtain ⟨biased, hbiased, h1, h2046⟩ :
      ∃ biased : ℕ, (biased : ℤ) = e + 1075 ∧ 1 ≤ biased ∧ biased ≤ 2046 :=
    ⟨(e + 1075).toNat, by omega, by omega, by omega⟩
  have hexp : (BitVec.ofNat 11 biased).toNat = biased := by
    rw [BitVec.toNat_ofNat, Nat.mod_eq_of_lt (by omega)]
  have hnotzero : BitVec.ofNat 11 biased ≠ 0#11 := by
    intro heq
    have := congrArg BitVec.toNat heq
    rw [hexp] at this
    change biased = 0 at this
    omega
  have hnottop : BitVec.ofNat 11 biased ≠ -1#11 := by
    intro heq
    have := congrArg BitVec.toNat heq
    rw [hexp] at this
    change biased = 2047 at this
    omega
  have hmant : (1#1 ++ BitVec.ofNat 52 m).toNat = m := by
    rw [toNat_one_append, BitVec.toNat_ofNat]
    omega
  have hunpack := unpack_packComponents_normal .binary64 sign hnottop hnotzero
    (show 0 < (1#1 ++ BitVec.ofNat 52 m).toNat by rw [hmant]; exact hm)
  rw [pack_normal sign hm hbiased h2046 hlog, hunpack]
  refine finite_congr sign _ hm hmant ?_
  rw [hexp, binary64_sizes.2.2]
  change (biased : ℤ) - ((1023 : ℕ) + (52 : ℕ)) = e
  omega

/-- A form with fewer bits survives being packed. -/
theorem unpack_pack_subnormal (sign : Sign) (hm : 0 < m) (hless : m < 2 ^ 52) :
    unpack .binary64 (UnpackedFloat.pack .binary64 (.finite sign m (-1074) hm))
      = .finite sign m (-1074) hm := by
  have hlog : ¬ m.log2 + 1 = 53 := by
    have h52 := (Nat.log2_lt hm.ne').2 hless
    omega
  have hmant : (BitVec.ofNat 52 m).toNat = m := by
    rw [BitVec.toNat_ofNat, Nat.mod_eq_of_lt hless]
  have hnotzero : BitVec.ofNat 52 m ≠ 0#52 := by
    intro heq
    have := congrArg BitVec.toNat heq
    rw [hmant] at this
    change m = 0 at this
    omega
  have hunpack := unpack_packComponents_subnormal .binary64 sign (show 0#11 ≠ -1#11 by decide) rfl
    hnotzero (by rw [hmant]; exact hm)
  rw [pack_subnormal sign hm hlog, hunpack]
  exact finite_congr sign _ hm hmant (by rw [binary64_sizes.2.2]; rfl)

/-- A form survives being packed. -/
theorem unpack_pack_finite (sign : Sign) (hm : 0 < m) (h : Canonical m e) :
    (Float.Model.pack (.finite sign m e hm)).unpack = .finite sign m e hm := by
  by_cases hfull : 2 ^ 52 ≤ m
  · exact unpack_pack_normal sign hm h hfull
  · obtain rfl := h.normal.resolve_left hfull
    exact unpack_pack_subnormal sign hm (not_le.1 hfull)

@[simp] theorem unpack_pack_zero (sign : Sign) :
    (Float.Model.pack (.zero sign)).unpack = .zero sign := by
  cases sign <;> rfl

/-- What is no number. -/
def nan : Float :=
  .ofModel (.pack .notANumber)

/-- What is no number has the greatest exponent and a mantissa. -/
theorem exponent_mantissa_of_unpack_nan (h : unpack .binary64 b = .notANumber) :
    unpackExponent b = -1#_ ∧ unpackMantissa b ≠ 0#_ := by
  unfold UnpackedFloat.unpack at h
  dsimp only at h
  by_cases htop : unpackExponent b = -1#_
  · rw [if_pos htop] at h
    refine ⟨htop, fun hmant => ?_⟩
    rw [if_pos hmant] at h
    cases h
  · rw [if_neg htop] at h
    by_cases hzero : unpackExponent b = 0#_
    · rw [if_pos hzero] at h
      by_cases hmant : unpackMantissa b = 0#_
      · rw [dif_pos hmant] at h
        cases h
      · rw [dif_neg hmant] at h
        cases h
    · rw [if_neg hzero] at h
      cases h

/-- Only one double is no number. -/
theorem eq_nan {x : Float} (h : x.toModel.unpack = .notANumber) : x = nan := by
  obtain ⟨⟨bits, hvalid⟩⟩ := x
  obtain ⟨htop, hmant⟩ := exponent_mantissa_of_unpack_nan h
  have hbits : bits.toBitVec = packedNaN .binary64 := hvalid.eq_packedNaN htop hmant
  have heq : bits = UInt64.ofBitVec (packedNaN .binary64) := UInt64.toBitVec_inj.1 hbits
  subst heq
  rfl

end Orthomosaic.Binary64
