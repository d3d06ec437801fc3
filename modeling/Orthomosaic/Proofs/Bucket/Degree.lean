import Orthomosaic.Bucket.Basic
import Orthomosaic.Proofs.Scalar.Exact

/-!
# Whole degrees and rows

Where a point falls among the buckets is settled by whole numbers: the whole degree of a number, and
the row of eighths of a degree that a latitude lies in. `floorDegree` is the floor of what is not
negative; a negative number just below a whole degree is taken up to it.

Every edge of a band lies between two rows, so the width of the buckets at a latitude depends on the
row only. It is a whole number of eighths of a degree, `rowUnits`.
-/

namespace Orthomosaic

open Scalar

/-! ## Whole degrees -/

theorem snapTolerance_eq : (snapTolerance : ℚ) = 1 / 10000000 := by
  unfold snapTolerance
  norm_num

theorem snapTolerance_pos : (0 : ℚ) < snapTolerance := by
  rw [snapTolerance_eq]
  norm_num

/-- The latitude that stands for the poles is a hundred-thousandth of a degree short of them. -/
theorem poleLimit_eq : (poleLimit : ℚ) = 8999999 / 100000 := by
  unfold poleLimit
  norm_num

theorem le_poleLimit : (-90 : ℚ) ≤ poleLimit := by
  rw [poleLimit_eq]
  norm_num

theorem floorDegree_of_nonneg {x : ℚ} (h : 0 ≤ x) (hx : x ≤ 180) : floorDegree x = ⌊x⌋ := by
  rw [floorDegree, truncate_of_nonneg h (by linarith)]
  exact if_pos (.inl h)

/-- The whole degree of a negative number is the greatest below what lies a tolerance above it. -/
theorem floorDegree_of_neg {x : ℚ} (h : x < 0) (hx : -180 ≤ x) :
    floorDegree x = ⌈x + snapTolerance⌉ - 1 := by
  have hlow := Int.ceil_lt_add_one x
  have hhigh := Int.le_ceil x
  have hdiff : magnitude (x - (⌈x⌉ : ℚ)) = ⌈x⌉ - x := by
    rw [magnitude_eq_abs, abs_of_nonpos (by linarith)]
    ring
  rw [floorDegree, truncate_of_neg h (by linarith), hdiff]
  rcases lt_or_ge ((⌈x⌉ : ℚ) - x) snapTolerance with hsnap | hfar
  · have hceil : ⌈x + snapTolerance⌉ = ⌈x⌉ + 1 := by
      rw [Int.ceil_eq_iff]
      have := snapTolerance_eq
      push_cast
      constructor <;> linarith
    rw [if_pos (.inr hsnap), hceil]
    ring
  · have hceil : ⌈x + snapTolerance⌉ = ⌈x⌉ := by
      rw [Int.ceil_eq_iff]
      have := snapTolerance_pos
      constructor <;> linarith
    have hcase : ¬ ((0 : ℚ) ≤ x ∨ (⌈x⌉ : ℚ) - x < snapTolerance) :=
      not_or.2 ⟨not_le.2 h, not_lt.2 hfar⟩
    exact (if_neg hcase).trans (by rw [hceil])

/-- A number lies less than a degree above its whole degree, or less than the tolerance below. -/
theorem floorDegree_mem {x : ℚ} (h0 : -180 ≤ x) (h1 : x ≤ 180) :
    (floorDegree x : ℚ) - snapTolerance < x ∧ x < floorDegree x + 1 := by
  have htol := snapTolerance_pos
  rcases lt_or_ge x 0 with h | h
  · have hlow := Int.le_ceil (x + snapTolerance)
    have hhigh := Int.ceil_lt_add_one (x + snapTolerance)
    rw [floorDegree_of_neg h h0]
    push_cast
    constructor <;> linarith
  · have hlow := Int.floor_le x
    have hhigh := Int.lt_floor_add_one x
    rw [floorDegree_of_nonneg h h1]
    constructor <;> linarith

/-- A whole degree at or below a number is at or below its whole degree. -/
theorem le_floorDegree {x : ℚ} {n : ℤ} (h0 : -180 ≤ x) (h1 : x ≤ 180) (hn : (n : ℚ) ≤ x) :
    n ≤ floorDegree x := by
  have hlt : (n : ℚ) < (floorDegree x + 1 : ℤ) := by
    have := (floorDegree_mem h0 h1).2
    push_cast
    linarith
  have : n < floorDegree x + 1 := by exact_mod_cast hlt
  omega

/-- Below a positive whole degree all numbers have lower whole degrees. -/
theorem floorDegree_lt {x : ℚ} {n : ℤ} (h0 : -180 ≤ x) (h1 : x ≤ 180) (hn : 0 < n)
    (hx : x < n) : floorDegree x < n := by
  rcases lt_or_ge x 0 with h | h
  · have hlt : (floorDegree x : ℚ) < (1 : ℤ) := by
      have := (floorDegree_mem h0 h1).1
      have := snapTolerance_eq
      push_cast
      linarith
    have : floorDegree x < 1 := by exact_mod_cast hlt
    omega
  · rw [floorDegree_of_nonneg h h1]
    exact Int.floor_lt.2 hx

theorem floorDegree_le {x : ℚ} (h : 0 ≤ x) (h1 : x ≤ 180) : (floorDegree x : ℚ) ≤ x := by
  rw [floorDegree_of_nonneg h h1]
  exact Int.floor_le x

/-! ## Rows -/

/-- The row that a latitude lies in: rows are an eighth of a degree high and counted from the south
pole. -/
def rowOf (lat : ℚ) : ℤ :=
  ⌊8 * (lat + 90)⌋

/-- The width of the buckets of a row, in eighths of a degree. -/
def rowUnits (row : ℤ) : ℤ :=
  if 1432 ≤ row then 96
  else if 1408 ≤ row then 32
  else if 1384 ≤ row then 16
  else if 1328 ≤ row then 8
  else if 1216 ≤ row then 4
  else if 896 ≤ row then 2
  else if 544 ≤ row then 1
  else if 224 ≤ row then 2
  else if 112 ≤ row then 4
  else if 56 ≤ row then 8
  else if 32 ≤ row then 16
  else if 8 ≤ row then 32
  else 96

/-- The number of buckets of a row. -/
def rowColumns (row : ℤ) : ℤ :=
  2880 / rowUnits row

/-- The widths that occur, in eighths of a degree. -/
def bandUnits : List ℤ :=
  [1, 2, 4, 8, 16, 32, 96]

theorem rowUnits_mem (row : ℤ) : rowUnits row ∈ bandUnits := by
  unfold rowUnits
  repeat' refine iteInduction (motive := (· ∈ bandUnits)) (fun _ => ?_) fun _ => ?_
  all_goals decide

theorem rowUnits_cases (row : ℤ) :
    rowUnits row = 1 ∨ rowUnits row = 2 ∨ rowUnits row = 4 ∨ rowUnits row = 8 ∨
      rowUnits row = 16 ∨ rowUnits row = 32 ∨ rowUnits row = 96 := by
  simpa [bandUnits] using rowUnits_mem row

theorem rowUnits_pos (row : ℤ) : 0 < rowUnits row := by
  rcases rowUnits_cases row with h | h | h | h | h | h | h <;> omega

/-- A bucket of at most a degree fits a degree. -/
theorem rowUnits_dvd_eight {row : ℤ} (h : rowUnits row ≤ 8) : rowUnits row ∣ 8 := by
  rcases rowUnits_cases row with hu | hu | hu | hu | hu | hu | hu <;> rw [hu] at h ⊢
  all_goals omega

theorem rowUnits_le (row : ℤ) : rowUnits row ≤ 96 := by
  rcases rowUnits_cases row with h | h | h | h | h | h | h <;> omega

theorem rowColumns_mul_rowUnits (row : ℤ) : rowColumns row * rowUnits row = 2880 := by
  unfold rowColumns
  rcases rowUnits_cases row with h | h | h | h | h | h | h <;> rw [h] <;> norm_num

theorem le_rowColumns (row : ℤ) : 30 ≤ rowColumns row := by
  unfold rowColumns
  rcases rowUnits_cases row with h | h | h | h | h | h | h <;> rw [h] <;> norm_num

/-- A whole degree is at most a latitude exactly when its first row is at most the row of the
latitude. -/
theorem degree_le_iff (n : ℤ) (lat : ℚ) : (n : ℚ) ≤ lat ↔ 8 * (n + 90) ≤ rowOf lat := by
  rw [rowOf, Int.le_floor]
  push_cast
  constructor <;> intro h <;> linarith

/-- One band of the two tables of widths, that of latitudes and that of rows. -/
theorem band_eq {lat : ℚ} (edge : ℤ) {first u v : ℤ} {a c : ℚ} (hedge : 8 * (edge + 90) = first)
    (ha : a = (u : ℚ) / 8) (hc : c = (v : ℚ) / 8) :
    (if (edge : ℚ) ≤ lat then a else c) = ((if first ≤ rowOf lat then u else v : ℤ) : ℚ) / 8 := by
  have h := degree_le_iff edge lat
  rw [hedge] at h
  by_cases hrow : first ≤ rowOf lat
  · rw [if_pos (h.2 hrow), if_pos hrow, ha]
  · rw [if_neg (fun hlat => hrow (h.1 hlat)), if_neg hrow, hc]

/-- The width of the buckets at a latitude is that of the row. -/
theorem bucketSpan_eq (lat : ℚ) : bucketSpan lat = (rowUnits (rowOf lat) : ℚ) / 8 := by
  unfold bucketSpan rowUnits
  refine band_eq 89 rfl (by rw [literal_eq]; norm_num) ?_
  refine band_eq 86 rfl (by rw [literal_eq]; norm_num) ?_
  refine band_eq 83 rfl (by rw [literal_eq]; norm_num) ?_
  refine band_eq 76 rfl (by rw [literal_eq]; norm_num) ?_
  refine band_eq 62 rfl (by norm_num) ?_
  refine band_eq 22 rfl (by norm_num) ?_
  refine band_eq (-22) rfl (by norm_num) ?_
  refine band_eq (-62) rfl (by norm_num) ?_
  refine band_eq (-76) rfl (by norm_num) ?_
  refine band_eq (-83) rfl (by rw [literal_eq]; norm_num) ?_
  refine band_eq (-86) rfl (by rw [literal_eq]; norm_num) ?_
  exact band_eq (-89) rfl (by rw [literal_eq]; norm_num) (by rw [literal_eq]; norm_num)

end Orthomosaic
