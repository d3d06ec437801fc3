import Orthomosaic.Proofs.Binary64.Whole
import Orthomosaic.Proofs.Scalar.Binary64
import Orthomosaic.Proofs.Settings.Size

/-!
# Whole numbers of bytes

A whole number of units is read exactly as long as its bytes fit into 64 bits, however many zeros stand
in front of it, and whatever does not fit is refused. There is one exception: bare bytes from `2 ^ 64`
up to half a place of the doubles beyond it. A number that 64 bits do not hold is read as a double, these
round to `2 ^ 64` itself, and the limit they are compared with is the greatest word rounded to a double,
which is `2 ^ 64` again. So they pass, and are cut off at the greatest word (`Size.parse?_whole`).
-/

namespace Orthomosaic.Size

open Binary64 Float.Model UnpackedFloat
open Decimal (roundEven)

variable {letters : List Char} {unit n : ℕ} {x y : Float} {q : ℚ}

/-! ## Units -/

/-- The spellings of the units in upper case, with the bytes of each. -/
def unitSpellings : List (List Char × ℕ) :=
  [ ([], 1), (['B'], 1), (['K'], 1024), (['K', 'B'], 1024), (['M'], 1024 ^ 2),
    (['M', 'B'], 1024 ^ 2), (['G'], 1024 ^ 3), (['G', 'B'], 1024 ^ 3) ]

/-- Whether letters, each in either case, spell the unit of so many bytes. -/
def Spells (letters : List Char) (unit : ℕ) : Prop :=
  (letters.map Char.toUpper, unit) ∈ unitSpellings

instance (letters : List Char) (unit : ℕ) : Decidable (Spells letters unit) :=
  inferInstanceAs (Decidable ((letters.map Char.toUpper, unit) ∈ unitSpellings))

theorem Spells.unit?_eq (h : Spells letters unit) : unit? letters = some unit := by
  unfold Spells unitSpellings at h
  simp only [List.mem_cons, Prod.mk.injEq, List.not_mem_nil, or_false] at h
  rcases h with ⟨hname, rfl⟩ | ⟨hname, rfl⟩ | ⟨hname, rfl⟩ | ⟨hname, rfl⟩ | ⟨hname, rfl⟩
    | ⟨hname, rfl⟩ | ⟨hname, rfl⟩ | ⟨hname, rfl⟩ <;> rw [unit?, hname] <;> rfl

/-- A character whose upper case is a letter is one. -/
theorem isLetter_of_toUpper {c : Char} (h : isLetter c.toUpper = true) : isLetter c = true := by
  by_cases hlower : 'a' ≤ c ∧ c ≤ 'z'
  · simp [isLetter, hlower]
  · have heq : c.toUpper = c := dif_neg hlower
    rwa [heq] at h

theorem Spells.isLetter (h : Spells letters unit) :
    ∀ c ∈ letters, Size.isLetter c = true := by
  have hall : ∀ p ∈ unitSpellings, p.1.all Size.isLetter = true := by decide
  intro c hc
  exact isLetter_of_toUpper (List.all_eq_true.1 (hall _ h) _ (List.mem_map_of_mem hc))

/-- The bytes of a unit are a power of two, whose double is that power. -/
theorem Spells.exists_unpack (h : Spells letters unit) :
    ∃ (j : ℕ) (hpos : 0 < 2 ^ 52), unit = 2 ^ j
      ∧ (Float.ofNat unit).toModel.unpack = .finite .positive (2 ^ 52) ((j : ℤ) - 52) hpos := by
  have hall : ∀ p ∈ unitSpellings, p.2 = 1 ∨ p.2 = 1024 ∨ p.2 = 1024 ^ 2 ∨ p.2 = 1024 ^ 3 := by
    decide
  rcases hall _ h with rfl | rfl | rfl | rfl
  · exact ⟨0, by decide, rfl, rfl⟩
  · exact ⟨10, by decide, rfl, rfl⟩
  · exact ⟨20, by decide, rfl, rfl⟩
  · exact ⟨30, by decide, rfl, rfl⟩

/-! ## The limit -/

/-- The greatest word is rounded up to a power of two. -/
theorem denotes_limit : Denotes (Float.ofNat Word.unsigned64) (2 ^ 64) := by
  have hbecomes := becomes_ofNat (n := Word.unsigned64) (k := 11) (by decide +kernel) (by decide)
  have hround : roundEven Word.unsigned64 (2 ^ 11) = 2 ^ 53 := by decide
  rw [hround] at hbecomes
  have hvalue : (((2 ^ 53 : ℕ) : ℚ)) * 2 ^ 11 = 2 ^ 64 := by norm_num
  rw [hvalue] at hbecomes
  exact hbecomes.denotes (pow_lt_pow_right₀ (by norm_num) (by norm_num))

/-- A double at or above the limit is cut off there. -/
theorem nearest_of_le {least greatest : ℕ} (hx : Denotes x q) (horder : least ≤ greatest)
    (hpos : 0 < greatest) (h : (greatest : ℚ) ≤ q) :
    Binary64.nearest least greatest x = greatest := by
  have hq : 0 < q := lt_of_lt_of_le (by exact_mod_cast hpos) h
  rcases hx.unpack_cases with ⟨s, -, rfl⟩ | ⟨s, m, e, hm, hu, rfl, -⟩
  · exact absurd hq (lt_irrefl 0)
  have hvalue : (0 : ℚ) < m * 2 ^ e := by positivity
  obtain rfl : s = .positive := by
    cases s with
    | positive => rfl
    | negative => exact absurd hq (neg_neg_of_pos hvalue).not_gt
  change (greatest : ℚ) ≤ m * 2 ^ e at h
  have hden : 0 < denominator e := Nat.pow_pos (by norm_num)
  have hnum : greatest * denominator e ≤ numerator m e := by
    rw [← numerator_div_denominator, le_div_iff₀ (by exact_mod_cast hden)] at h
    exact_mod_cast h
  have hnearest : greatest ≤ nearestNat m e := by
    rw [nearestNat, Nat.le_div_iff_mul_le (by omega), mul_left_comm]
    omega
  have hform : value x = .finite false m e := by
    unfold value
    rw [hu]
    rfl
  unfold Binary64.nearest
  rw [hform]
  dsimp only
  rw [if_neg Bool.false_ne_true]
  omega

/-- A double of at least `2 ^ 64` units is so many bytes, which pass only if they are `2 ^ 64`. -/
theorem fractionalBytes?_of_becomes {j : ℕ} {hpos : 0 < 2 ^ 52} (hx : Becomes x q)
    (hq : 2 ^ 64 ≤ q)
    (hunit : (Float.ofNat unit).toModel.unpack = .finite .positive (2 ^ 52) ((j : ℤ) - 52) hpos) :
    fractionalBytes? x unit = if q * 2 ^ j ≤ 2 ^ 64 then some Word.unsigned64 else none := by
  have hlimit := denotes_limit
  have hrange : (2 : ℚ) ^ 64 < 2 ^ 1024 := pow_lt_pow_right₀ (by norm_num) (by norm_num)
  have hgrows : q ≤ q * 2 ^ j := le_mul_of_one_le_right (by linarith) (one_le_pow₀ (by norm_num))
  have hbeyond : 2 ^ 1024 ≤ q * 2 ^ j → ¬ q * 2 ^ j ≤ 2 ^ 64 := fun h => (hrange.trans_le h).not_ge
  rcases lt_or_ge q (2 ^ 1024) with hless | hover
  · have hd := hx.denotes hless
    have hfinite : x.isFinite = true := by
      change x.toModel.unpack.isFinite = true
      rcases hd.unpack_cases with ⟨s, hu, -⟩ | ⟨s, m, e, hm, hu, -, -⟩ <;> rw [hu] <;> rfl
    have hsign : ¬ x < 0 := by
      have hzero : Denotes (0 : Float) 0 := denotes_ofNat (k := 0) (by norm_num)
      rw [hd.lt_iff hzero]
      linarith
    have hbytes := hd.becomes_mul (by linarith) (Int.natCast_nonneg j) hunit
    rw [zpow_natCast] at hbytes
    unfold fractionalBytes?
    rw [if_neg (by simp [hfinite, hsign])]
    dsimp only
    rcases lt_or_ge (q * 2 ^ j) (2 ^ 1024) with hless' | hover'
    · have hd' := hbytes.denotes hless'
      by_cases hle : q * 2 ^ j ≤ 2 ^ 64
      · have hword : ((Word.unsigned64 : ℕ) : ℚ) ≤ q * 2 ^ j :=
          le_trans (by norm_num [Word.unsigned64]) (hq.trans hgrows)
        have hnearest := nearest_of_le hd' (Nat.zero_le _) (by decide) hword
        rw [if_pos hle, if_neg (mt (hlimit.lt_iff hd').1 hle.not_gt)]
        exact congrArg (fun n : ℤ => some n.toNat) hnearest
      · rw [if_neg hle, if_pos ((hlimit.lt_iff hd').2 (not_le.1 hle))]
    · rw [if_neg (hbeyond hover'), if_pos ((lt_infinity_iff (hbytes.infinity hover') hlimit).2 rfl)]
  · have hfinite : x.isFinite = false := by
      change x.toModel.unpack.isFinite = false
      rw [hx.infinity hover]
      rfl
    unfold fractionalBytes?
    rw [if_pos (by simp [hfinite]), if_neg (hbeyond (hover.trans hgrows))]

/-- A whole number from `2 ^ 64` on goes to `2 ^ 64` up to half a place beyond it, and to a greater
double from there on. -/
theorem roundEven_mul_le_iff {k : ℕ} (hlog : n.log2 = 52 + k) (hn : 2 ^ 64 ≤ n) :
    2 ^ 64 ≤ roundEven n (2 ^ k) * 2 ^ k
      ∧ (roundEven n (2 ^ k) * 2 ^ k ≤ 2 ^ 64 ↔ n ≤ 2 ^ 64 + 2 ^ 11) := by
  have hne : n ≠ 0 := by
    rintro rfl
    exact absurd hn (by norm_num)
  have hk : 12 ≤ k := by
    have := (Nat.le_log2 hne).2 hn
    omega
  have hself : 2 ^ 52 * 2 ^ k ≤ n := by
    rw [← pow_add, ← hlog]
    exact Nat.log2_self_le hne
  have hle := Nat.mul_le_mul_right (2 ^ k) (Decimal.le_roundEven (Nat.two_pow_pos k) hself)
  rcases hk.eq_or_lt with rfl | hk
  · refine ⟨hle, ?_⟩
    have hhigh : n < 2 ^ 65 := by
      have hlt : n < 2 ^ (n.log2 + 1) := Nat.lt_log2_self
      rwa [hlog] at hlt
    unfold roundEven
    dsimp only
    split_ifs <;> omega
  · have hlarge : 2 ^ 65 ≤ 2 ^ 52 * 2 ^ k := by
      rw [← pow_add]
      exact Nat.pow_le_pow_right (by norm_num) (by omega)
    constructor
    · omega
    · constructor <;> omega

/-! ## Whole numbers -/

/-- A number of at least `2 ^ 64` units is at most `2 ^ 64` bytes, once rounded to a double, exactly
if the units are bytes and it is at most half a place beyond. -/
theorem roundEven_bytes_le_iff {k j : ℕ} (hlog : n.log2 = 52 + k) (hn : 2 ^ 64 ≤ n) :
    (roundEven n (2 ^ k) : ℚ) * 2 ^ k * 2 ^ j ≤ 2 ^ 64 ↔ 2 ^ j = 1 ∧ n ≤ 2 ^ 64 + 2 ^ 11 := by
  obtain ⟨hlow, hiff⟩ := roundEven_mul_le_iff hlog hn
  have hcast : (roundEven n (2 ^ k) : ℚ) * 2 ^ k * 2 ^ j ≤ 2 ^ 64
      ↔ roundEven n (2 ^ k) * 2 ^ k * 2 ^ j ≤ 2 ^ 64 := by
    exact_mod_cast Iff.rfl
  rw [hcast, ← hiff]
  generalize roundEven n (2 ^ k) * 2 ^ k = r at hlow
  rcases Nat.eq_zero_or_pos j with rfl | hj
  · simp
  · have htwo : 2 ≤ 2 ^ j := Nat.le_self_pow hj.ne' 2
    have hdouble : r * 2 ≤ r * 2 ^ j := Nat.mul_le_mul_left r htwo
    constructor <;> omega

/-- A number with more than 310 digits is beyond the range of the doubles. -/
theorem toFloat_of_digitCount (h : 310 < Decimal.digitCount n) :
    Decimal.toFloat n 0 = 1 / 0 ∧ 2 ^ 64 + 2 ^ 11 < n := by
  have hlarge : 2 ^ 64 + 2 ^ 11 < n := by
    by_contra hsmall
    have hshort : Decimal.digitCount n ≤ 20 :=
      (Nat.length_toDigits_le_iff (by decide) (by decide)).2 (by omega)
    omega
  refine ⟨?_, hlarge⟩
  unfold Decimal.toFloat
  rw [if_neg (by omega)]
  exact if_pos (by omega)

/-- A whole number of units that is read as a double is refused, unless it is a number of bytes that
is rounded to `2 ^ 64`. -/
theorem fractionalBytes?_whole (hn : 2 ^ 64 ≤ n) (h : Spells letters unit) :
    fractionalBytes? (Decimal.toFloat n 0) unit
      = if unit = 1 ∧ n ≤ 2 ^ 64 + 2 ^ 11 then some (2 ^ 64 - 1) else none := by
  obtain ⟨j, hpos, rfl, hunit⟩ := h.exists_unpack
  by_cases hplace : 310 < Decimal.digitCount n
  · obtain ⟨hinfinite, hlarge⟩ := toFloat_of_digitCount hplace
    rw [hinfinite, if_neg fun h => hlarge.not_ge h.2]
    exact if_pos (.inl (by decide))
  · have hne : n ≠ 0 := by
      rintro rfl
      exact absurd hn (by norm_num)
    have hnumber : Decimal.toFloat n 0 = Float.ofNat n := by
      unfold Decimal.toFloat
      rw [if_neg hne]
      dsimp only
      rw [if_neg (by omega), if_neg (by omega)]
      rfl
    have hlong : 64 ≤ n.log2 := (Nat.le_log2 hne).2 hn
    obtain ⟨k, hlog⟩ := Nat.exists_eq_add_of_le (show 52 ≤ n.log2 by omega)
    have hlow : (2 : ℚ) ^ 64 ≤ roundEven n (2 ^ k) * 2 ^ k := by
      exact_mod_cast (roundEven_mul_le_iff hlog hn).1
    rw [hnumber, fractionalBytes?_of_becomes (becomes_ofNat hlog (by omega)) hlow hunit]
    exact if_congr (roundEven_bytes_le_iff hlog hn) rfl rfl

variable {lead ds gap trail : List Char}

/-- A whole number of units, with blanks in front, between and behind, is read as its bytes if these
fit into 64 bits. Otherwise it is refused, except that bare bytes from `2 ^ 64` up to `2 ^ 11` beyond it
are taken for the greatest word. -/
theorem parse?_whole (hne : ds ≠ []) (hdigits : ∀ c ∈ ds, c.isDigit = true)
    (hunit : Spells letters unit) (hlead : ∀ c ∈ lead, Text.isBlank c = true)
    (hgap : ∀ c ∈ gap, Text.isBlank c = true) (htrail : ∀ c ∈ trail, Text.isBlank c = true) :
    parse? (lead ++ ds ++ gap ++ letters ++ trail)
      = if Nat.ofDigitChars 10 ds 0 * unit < 2 ^ 64 then some (Nat.ofDigitChars 10 ds 0 * unit)
        else if unit = 1 ∧ Nat.ofDigitChars 10 ds 0 ≤ 2 ^ 64 + 2 ^ 11 then some (2 ^ 64 - 1)
        else none := by
  rw [parse?_spelled hne hdigits hunit.isLetter hunit.unit?_eq hlead hgap htrail]
  generalize Nat.ofDigitChars 10 ds 0 = n
  have hpos : 0 < unit := by
    obtain ⟨j, -, rfl, -⟩ := hunit.exists_unpack
    positivity
  have hgrows : n ≤ n * unit := Nat.le_mul_of_pos_right n hpos
  by_cases hword : n ≤ Word.unsigned64
  · rw [if_pos hword, wholeBytes?]
    by_cases hfits : n * unit ≤ Word.unsigned64
    · rw [if_pos hfits, if_pos (Nat.lt_of_le_pred (by norm_num) hfits)]
    · have hbare : ¬ (unit = 1 ∧ n ≤ 2 ^ 64 + 2 ^ 11) := by
        rintro ⟨rfl, -⟩
        exact hfits (by rwa [mul_one])
      rw [if_neg hfits, if_neg (mt Nat.le_pred_of_lt hfits), if_neg hbare]
  · have hlarge : 2 ^ 64 ≤ n := not_lt.1 (mt Nat.le_pred_of_lt hword)
    rw [if_neg hword, fractionalBytes?_whole hlarge hunit, if_neg (hlarge.trans hgrows).not_gt]

/-- Zeros in front, a unit in letters of both cases, and blanks of three kinds. -/
theorem parse?_whole_among_blanks :
    Spells ['m', 'B'] (1024 ^ 2)
      ∧ parse? ([' ', '\t'] ++ ['0', '0', '7'] ++ ['\u00a0'] ++ ['m', 'B'] ++ [' ']) = some 7340032 := by
  have hunit : Spells ['m', 'B'] (1024 ^ 2) := by decide
  refine ⟨hunit, ?_⟩
  have hdigits : ['0', '0', '7'].all Char.isDigit = true := by decide
  have hlead : [' ', '\t'].all Text.isBlank = true := by decide
  have hgap : ['\u00a0'].all Text.isBlank = true := by decide
  have htrail : [' '].all Text.isBlank = true := by decide
  rw [List.all_eq_true] at hdigits hlead hgap htrail
  rw [parse?_whole (by decide) hdigits hunit hlead hgap htrail]
  decide

/-- The first number of bytes that is too great for 64 bits is taken for the greatest that is not. -/
theorem parse?_saturates :
    ¬ ∀ (ds letters : List Char) (unit : ℕ), ds ≠ [] → (∀ c ∈ ds, c.isDigit = true) →
      Spells letters unit →
        parse? (ds ++ letters)
          = if Nat.ofDigitChars 10 ds 0 * unit < 2 ^ 64 then
              some (Nat.ofDigitChars 10 ds 0 * unit)
            else none := by
  intro h
  have hdigits : "18446744073709551616".toList.all Char.isDigit = true := by decide +kernel
  have hread := h _ [] 1 (by decide +kernel) (List.all_eq_true.1 hdigits) (by decide)
  revert hread
  decide +kernel

end Orthomosaic.Size
