import Orthomosaic.Proofs.Bucket.Cell

/-!
# Rows and columns by degrees

`Bucket.containing` names a bucket by whole degrees and by parts of a degree. Here each name it can
give is turned into a row (`exists_row`) or a column (`exists_narrow` up to a degree wide,
`exists_wide` beyond that), with the stretch in which the number then lies. Up to the snapping
tolerance it is the stretch of the cell, if the width that was looked up is that of the row.
-/

namespace Orthomosaic

open Scalar

/-! ## Parts of a degree -/

/-- A whole number is cut off to itself. -/
theorem truncate_intCast {n : ℤ} (h0 : -2147483648 ≤ n) (h1 : n < 2147483648) :
    truncate (n : ℚ) = n := by
  rcases lt_or_ge n 0 with h | h
  · rw [truncate_of_neg (by exact_mod_cast h), Int.ceil_intCast]
    have : ((-2147483649 : ℤ) : ℚ) < n := by
      exact_mod_cast (show -2147483649 < n by omega)
    exact_mod_cast this
  · rw [truncate_of_nonneg (by exact_mod_cast h) (by exact_mod_cast h1), Int.floor_intCast]

/-- The part of a degree that a place falls into, when the degree has `k` parts. A place just below
the degree is in the first part. -/
theorem eighth_truncate {d : ℚ} {k : ℤ} (hk : 1 ≤ k) (hk' : k ≤ 8) (h0 : -snapTolerance < d)
    (h1 : d < 1) :
    ∃ m : ℤ, 0 ≤ m ∧ m < k ∧ ((Bucket.eighth (truncate (d * k)) : ℕ) : ℤ) = m
      ∧ (m ≤ d * k ∨ m = 0) ∧ d * k < m + 1 := by
  have htol := snapTolerance_eq
  have hkq : (1 : ℚ) ≤ k := by exact_mod_cast hk
  have hkq' : (k : ℚ) ≤ 8 := by exact_mod_cast hk'
  have hval : ∀ m : ℤ, 0 ≤ m → m < k → ((Bucket.eighth m : ℕ) : ℤ) = m := by
    intro m hm0 hm1
    change ((min m.toNat 7 % 8 : ℕ) : ℤ) = m
    omega
  rcases lt_or_ge d 0 with h | h
  · have hlow : -1 < d * k := by nlinarith
    have hneg : d * k < 0 := by nlinarith
    have hzero : truncate (d * (k : ℚ)) = 0 := by
      rw [truncate_of_neg hneg (by linarith), Int.ceil_eq_iff]
      push_cast
      constructor <;> linarith
    refine ⟨0, le_refl 0, by omega, ?_, .inr rfl, by push_cast; linarith⟩
    rw [hzero]
    exact hval 0 (le_refl 0) (by omega)
  · have hnonneg : 0 ≤ d * k := by nlinarith
    have hlt : d * k < k := by nlinarith
    have hfloor := Int.floor_le (d * (k : ℚ))
    have hm0 : 0 ≤ ⌊d * (k : ℚ)⌋ := Int.floor_nonneg.2 hnonneg
    have hm1 : ⌊d * (k : ℚ)⌋ < k := Int.floor_lt.2 hlt
    refine ⟨⌊d * (k : ℚ)⌋, hm0, hm1, ?_, .inl hfloor, Int.lt_floor_add_one _⟩
    rw [truncate_of_nonneg hnonneg (by linarith)]
    exact hval _ hm0 hm1

/-- A quotient of whole numbers is cut off to the whole number that the divisor fits. -/
theorem truncate_div {a k q : ℤ} (hk : 0 < k) (ha : -180 ≤ a) (ha' : a ≤ 180)
    (h : (0 ≤ a ∧ q * k ≤ a ∧ a < q * k + k) ∨ (a ≤ 0 ∧ a ≤ q * k ∧ q * k < a + k)) :
    truncate ((a : ℚ) / (k : ℚ)) = q := by
  have hkq : (0 : ℚ) < k := by exact_mod_cast hk
  have hk1 : (1 : ℚ) ≤ k := by exact_mod_cast hk
  have haq : (-180 : ℚ) ≤ a := by exact_mod_cast ha
  have haq' : (a : ℚ) ≤ 180 := by exact_mod_cast ha'
  have hlow : -180 ≤ (a : ℚ) / k := by
    rw [le_div_iff₀ hkq]
    linarith
  have hhigh : (a : ℚ) / k ≤ 180 := by
    rw [div_le_iff₀ hkq]
    linarith
  rcases h with ⟨h0, h1, h2⟩ | ⟨h0, h1, h2⟩
  · have h1q : (q : ℚ) * k ≤ a := by exact_mod_cast h1
    have h2q : (a : ℚ) < (q + 1) * k := by
      have : (a : ℚ) < q * k + k := by exact_mod_cast h2
      linarith
    rw [truncate_of_nonneg (div_nonneg (by exact_mod_cast h0) hkq.le) (by linarith),
      Int.floor_eq_iff]
    exact ⟨(le_div_iff₀ hkq).2 h1q, (div_lt_iff₀ hkq).2 h2q⟩
  · have h1q : (a : ℚ) ≤ q * k := by exact_mod_cast h1
    have h2q : ((q : ℚ) - 1) * k < a := by
      have : (q : ℚ) * k < a + k := by exact_mod_cast h2
      linarith
    rcases h0.lt_or_eq with hneg | hzero
    · rw [truncate_of_neg (div_neg_of_neg_of_pos (by exact_mod_cast hneg) hkq) (by linarith),
        Int.ceil_eq_iff]
      exact ⟨(lt_div_iff₀ hkq).2 h2q, (div_le_iff₀ hkq).2 h1q⟩
    · have hq : q = 0 := by
        subst hzero
        nlinarith
      subst hq hzero
      rw [Int.cast_zero, zero_div]
      exact truncate_intCast (n := 0) (by omega) (by omega)

/-! ## Rows -/

theorem rowSouth_le {row row' : ℤ} (h : row ≤ row') : rowSouth row ≤ rowSouth row' := by
  have h' : (row : ℚ) ≤ row' := by exact_mod_cast h
  unfold rowSouth
  linarith

/-- One band of the table of widths, where widths grow toward the south. -/
theorem band_le_south {edge u v w : ℤ} (row : ℤ) (hu : u ≤ w) (hv : v ≤ w) :
    (if edge ≤ row then u else v) ≤ if edge ≤ row - 1 then u else w := by
  by_cases h : edge ≤ row - 1
  · rw [if_pos h, if_pos (by omega)]
  · rw [if_neg h]
    exact iteInduction (motive := (· ≤ w)) (fun _ => hu) fun _ => hv

/-- One band of the table of widths, seen from south of it. -/
theorem band_le_of_lt {edge row row' u v w : ℤ} (h : row < edge) (h' : row' < edge) (hv : v ≤ w) :
    (if edge ≤ row then u else v) ≤ if edge ≤ row' then u else w := by
  rw [if_neg (not_le.2 h), if_neg (not_le.2 h')]
  exact hv

/-- South of the equator the buckets of a row are no wider than those of the next row south. -/
theorem rowUnits_le_south {row : ℤ} (h : row ≤ 720) : rowUnits row ≤ rowUnits (row - 1) := by
  unfold rowUnits
  iterate 6 refine band_le_of_lt (by omega) (by omega) ?_
  iterate 6
    refine band_le_south row ?_ ?_
    · repeat' refine iteInduction (motive := (_ ≤ ·)) (fun _ => ?_) fun _ => ?_
      all_goals decide
  exact le_refl 96

/-- A latitude less than the tolerance south of a row lies in the row below. -/
theorem rowOf_of_below {row : ℤ} {lat : ℚ} (hlow : rowSouth row - snapTolerance < lat)
    (hbelow : lat < rowSouth row) : rowOf lat = row - 1 := by
  have htol := snapTolerance_eq
  have hrow := rowSouth_succ (row - 1)
  rw [sub_add_cancel] at hrow
  refine rowOf_eq (by linarith) ?_
  rw [sub_add_cancel]
  exact hbelow

/-- The width at a latitude is no less than that of the row it is taken into, as only latitudes south
of the equator are taken up. -/
theorem rowUnits_le_rowOf {row : ℤ} {lat : ℚ} (hlow : rowSouth row - snapTolerance < lat)
    (hhigh : lat < rowSouth (row + 1)) (hsnap : rowSouth row ≤ lat ∨ row ≤ 720) :
    rowUnits row ≤ rowUnits (rowOf lat) := by
  rcases le_or_gt (rowSouth row) lat with h | h
  · rw [rowOf_eq h hhigh]
  · rw [rowOf_of_below hlow h]
    exact rowUnits_le_south (hsnap.resolve_left (not_le.2 h))

/-- The row that the degree and the eighth of a latitude name, and where the latitude lies in it. -/
theorem exists_row (lat : ℚ) (h0 : -90 ≤ lat) (h1 : lat ≤ poleLimit) :
    ∃ row : ℤ, 0 ≤ row ∧ row < 1440 ∧ floorDegree lat = row / 8 - 90
      ∧ ((Bucket.eighth (truncate ((lat - (floorDegree lat : ℚ)) * (8 : ℤ))) : ℕ) : ℤ) = row % 8
      ∧ rowSouth row - snapTolerance < lat ∧ lat < rowSouth (row + 1)
      ∧ (rowSouth row ≤ lat ∨ row ≤ 720) := by
  have htol := snapTolerance_eq
  have hpole := poleLimit_eq
  obtain ⟨hlow, hhigh⟩ := floorDegree_mem (x := lat) (by linarith) (by linarith)
  obtain ⟨m, hm0, hm1, hm, hle, hlt⟩ :=
    eighth_truncate (d := lat - (floorDegree lat : ℚ)) (k := 8) (by norm_num) (by norm_num)
      (by linarith) (by linarith)
  have hn0 : -90 ≤ floorDegree lat :=
    le_floorDegree (by linarith) (by linarith) (by push_cast; exact h0)
  have hn1 : floorDegree lat < 90 :=
    floorDegree_lt (by linarith) (by linarith) (by norm_num) (by push_cast; linarith)
  have hdegree : 0 ≤ lat → (floorDegree lat : ℚ) ≤ lat :=
    fun h => floorDegree_le h (by linarith)
  have hnegative : lat < 0 → floorDegree lat ≤ 0 := fun h =>
    Int.lt_add_one_iff.1
      (floorDegree_lt (by linarith) (by linarith) (by norm_num) (by push_cast; linarith))
  generalize floorDegree lat = n at *
  have hsouth : rowSouth (8 * (n + 90) + m) = n + m / 8 := by
    unfold rowSouth
    push_cast
    ring
  push_cast at hle hlt
  refine ⟨8 * (n + 90) + m, by omega, by omega, by omega, by omega, ?_, ?_, ?_⟩
  · rcases hle with h | rfl
    · linarith
    · rw [hsouth]
      push_cast
      linarith
  · linarith [rowSouth_succ (8 * (n + 90) + m)]
  · rcases hle with h | rfl
    · exact .inl (by linarith)
    -- in the first eighth of a degree the latitude may be below the degree, if it is negative
    rcases lt_or_ge lat 0 with h | h
    · have := hnegative h
      exact .inr (by omega)
    · refine .inl ?_
      rw [hsouth, Int.cast_zero, zero_div, add_zero]
      exact hdegree h

/-! ## Columns -/

/-- A whole number of eighths that is a western edge in a row names a column. -/
theorem exists_column {row e : ℤ} (hdvd : rowUnits row ∣ e + 1440) (h0 : -1440 ≤ e)
    (h1 : e < 1440) : ∃ column, cellEighth row column = e := by
  have hpos := rowUnits_pos row
  have hturn := rowColumns_mul_rowUnits row
  obtain ⟨c, hc⟩ := hdvd
  have hc0 : 0 ≤ c := by nlinarith
  have hcn : c < rowColumns row := by nlinarith
  refine ⟨c, ?_⟩
  unfold cellEighth
  rw [Int.emod_eq_of_lt hc0 hcn]
  linarith

/-- East of Greenwich a longitude is snapped to the multiple of the width below it. -/
theorem exists_wideLon_of_nonneg {lon : ℚ} {k : ℤ} (hk : k = 2 ∨ k = 4 ∨ k = 12) (h : 0 ≤ lon)
    (h1 : lon < 180) :
    ∃ q : ℤ, Bucket.wideLon lon (k : ℚ) = q * k ∧ -180 ≤ q * k ∧ q * k + k ≤ 180
      ∧ (q : ℚ) * k - snapTolerance < lon ∧ lon < (q : ℚ) * k + k := by
  have htol := snapTolerance_pos
  have hk0 : 0 < k := by omega
  have h0 : -180 ≤ lon := by linarith
  have hhigh := (floorDegree_mem h0 h1.le).2
  have hn0 : 0 ≤ floorDegree lon := le_floorDegree h0 h1.le (by push_cast; exact h)
  have hn1 : floorDegree lon < 180 := floorDegree_lt h0 h1.le (by norm_num) (by push_cast; exact h1)
  have hle : (floorDegree lon : ℚ) ≤ lon := floorDegree_le h h1.le
  unfold Bucket.wideLon
  generalize floorDegree lon = n at *
  obtain ⟨q, hq⟩ : ∃ q : ℤ, q * k ≤ n ∧ n < q * k + k ∧ 0 ≤ q * k ∧ q * k + k ≤ 180 := by
    refine ⟨n / k, ?_⟩
    rcases hk with rfl | rfl | rfl <;> omega
  have htrunc : truncate ((n : ℚ) / (k : ℚ)) = q :=
    truncate_div hk0 (by omega) (by omega) (.inl ⟨hn0, hq.1, hq.2.1⟩)
  have hmul : truncate (((q : ℤ) : ℚ) * (k : ℚ)) = q * k := by
    have hcast : ((q : ℤ) : ℚ) * (k : ℚ) = ((q * k : ℤ) : ℚ) := by push_cast; ring
    rw [hcast]
    exact truncate_intCast (by omega) (by omega)
  have hfloor : (q : ℚ) * k ≤ n := by exact_mod_cast hq.1
  have hlt : (n : ℚ) + 1 ≤ q * k + k := by exact_mod_cast hq.2.1
  refine ⟨q, ?_, by omega, hq.2.2.2, by linarith, by linarith⟩
  refine (if_pos h).trans ?_
  change truncate (((truncate ((n : ℚ) / (k : ℚ)) : ℤ) : ℚ) * (k : ℚ)) = _
  rw [htrunc, hmul]

/-- West of Greenwich a longitude is snapped to the multiple of the width below it, counted back from
the multiple at or above the next degree. -/
theorem exists_wideLon_of_neg {lon : ℚ} {k : ℤ} (hk : k = 2 ∨ k = 4 ∨ k = 12) (h0 : -180 ≤ lon)
    (h : lon < 0) :
    ∃ q : ℤ, Bucket.wideLon lon (k : ℚ) = q * k ∧ -180 ≤ q * k ∧ q * k + k ≤ 180
      ∧ (q : ℚ) * k - snapTolerance < lon ∧ lon < (q : ℚ) * k + k := by
  have hk0 : 0 < k := by omega
  have h1 : lon ≤ 180 := by linarith
  obtain ⟨hlow, hhigh⟩ := floorDegree_mem h0 h1
  have hn0 : -180 ≤ floorDegree lon := le_floorDegree h0 h1 (by push_cast; exact h0)
  have hn1 : floorDegree lon ≤ 0 :=
    Int.lt_add_one_iff.1 (floorDegree_lt h0 h1 (by norm_num) (by push_cast; linarith))
  unfold Bucket.wideLon
  generalize floorDegree lon = n at *
  -- degree 0 is reached by snapping only, and then the longitude is below the multiple 0
  obtain ⟨q, hdiv, hbelow, habove, hnonpos, hend⟩ : ∃ q : ℤ,
      (0 ≤ n + 1 ∧ q * k ≤ n + 1 ∧ n + 1 < q * k + k
        ∨ n + 1 ≤ 0 ∧ n + 1 ≤ q * k ∧ q * k < n + 1 + k)
      ∧ q * k - k ≤ n ∧ (n < q * k ∨ q = 0) ∧ q * k ≤ 0 ∧ -180 + k ≤ q * k := by
    rcases hn1.lt_or_eq with hn | rfl
    · refine ⟨-((-n - 1) / k), ?_⟩
      rcases hk with rfl | rfl | rfl <;> omega
    · refine ⟨0, ?_⟩
      rcases hk with rfl | rfl | rfl <;> omega
  have htrunc : truncate (((n + 1 : ℤ) : ℚ) / (k : ℚ)) = q :=
    truncate_div hk0 (by omega) (by omega) hdiv
  have hmul : truncate (((q : ℤ) : ℚ) * (k : ℚ) - (k : ℚ)) = q * k - k := by
    have hcast : ((q : ℤ) : ℚ) * (k : ℚ) - (k : ℚ) = ((q * k - k : ℤ) : ℚ) := by push_cast; ring
    rw [hcast]
    exact truncate_intCast (by omega) (by omega)
  have hfloor : (q : ℚ) * k - k ≤ n := by exact_mod_cast hbelow
  have hlt : lon < (q : ℚ) * k := by
    rcases habove with hn | rfl
    · have : (n : ℚ) + 1 ≤ q * k := by exact_mod_cast hn
      linarith
    · rw [Int.cast_zero, zero_mul]
      exact h
  have hstep : (q - 1) * k = q * k - k := by ring
  refine ⟨q - 1, ?_, by omega, by omega, ?_, ?_⟩
  · refine (if_neg (not_le.2 h)).trans ?_
    change max (truncate (((truncate (((n + 1 : ℤ) : ℚ) / (k : ℚ)) : ℤ) : ℚ) * (k : ℚ) - (k : ℚ)))
      (-180) = _
    rw [htrunc, hmul, hstep]
    omega
  · push_cast
    linarith
  · push_cast
    linarith

/-- A longitude is snapped to a multiple of the width where buckets are wider than a degree. -/
theorem exists_wideLon {lon : ℚ} {k : ℤ} (hk : k = 2 ∨ k = 4 ∨ k = 12) (h0 : -180 ≤ lon)
    (h1 : lon < 180) :
    ∃ q : ℤ, Bucket.wideLon lon (k : ℚ) = q * k ∧ -180 ≤ q * k ∧ q * k + k ≤ 180
      ∧ (q : ℚ) * k - snapTolerance < lon ∧ lon < (q : ℚ) * k + k := by
  rcases lt_or_ge lon 0 with h | h
  · exact exists_wideLon_of_neg hk h0 h
  · exact exists_wideLon_of_nonneg hk h h1

/-- A part of a degree, counted in widths of the row, names a column. -/
theorem exists_column_of_part {row n m : ℤ} (hdvd : rowUnits row ∣ 8) (hn0 : -180 ≤ n) (hn1 : n < 180)
    (hm : 0 ≤ m) (hpart : m * rowUnits row + rowUnits row ≤ 8) :
    ∃ column, cellEighth row column / 8 = n ∧ cellEighth row column % 8 / rowUnits row = m
      ∧ cellWest row column = n + m * rowUnits row / 8 := by
  have hw := rowUnits_pos row
  have hpart0 : 0 ≤ m * rowUnits row := mul_nonneg hm hw.le
  obtain ⟨column, hcolumn⟩ : ∃ column, cellEighth row column = 8 * n + m * rowUnits row := by
    refine exists_column ?_ (by omega) (by omega)
    have hsplit : 8 * n + m * rowUnits row + 1440 = 8 * (n + 180) + m * rowUnits row := by ring
    rw [hsplit]
    exact (hdvd.mul_right _).add (dvd_mul_left _ m)
  refine ⟨column, ?_, ?_, ?_⟩
  · rw [hcolumn]
    omega
  · have hmod : (8 * n + m * rowUnits row) % 8 = m * rowUnits row := by omega
    rw [hcolumn, hmod, Int.mul_ediv_cancel _ hw.ne']
  · unfold cellWest
    rw [hcolumn]
    push_cast
    ring

/-- The part of its degree that a longitude lies in, when parts are as wide as the buckets of a row. -/
theorem exists_part {lon : ℚ} {raw : ℤ} (hraw : rowUnits raw ≤ 8) (h0 : -180 ≤ lon)
    (h1 : lon ≤ 180) :
    ∃ m : ℤ, 0 ≤ m ∧ m * rowUnits raw + rowUnits raw ≤ 8
      ∧ ((Bucket.eighth
          (truncate ((lon - (floorDegree lon : ℚ)) / ((rowUnits raw : ℚ) / 8))) : ℕ) : ℤ) = m
      ∧ ((m : ℚ) * rowUnits raw ≤ (lon - floorDegree lon) * 8 ∨ m = 0)
      ∧ (lon - floorDegree lon) * 8 < (m : ℚ) * rowUnits raw + rowUnits raw := by
  have htol := snapTolerance_eq
  obtain ⟨hlow, hhigh⟩ := floorDegree_mem h0 h1
  obtain ⟨k, hk⟩ := rowUnits_dvd_eight hraw
  have hu := rowUnits_pos raw
  have hk1 : 1 ≤ k := by nlinarith
  have hk8 : k ≤ 8 := by nlinarith
  have huq : (0 : ℚ) < rowUnits raw := by exact_mod_cast hu
  have hkq : (8 : ℚ) = rowUnits raw * k := by exact_mod_cast hk
  obtain ⟨m, hm0, hm1, hm, hfrom, hto⟩ :=
    eighth_truncate (d := lon - (floorDegree lon : ℚ)) hk1 hk8 (by linarith) (by linarith)
  generalize lon - (floorDegree lon : ℚ) = d at *
  have hdiv : d / ((rowUnits raw : ℚ) / 8) = d * k := by
    rw [div_eq_iff (by linarith)]
    linear_combination d / 8 * hkq
  have hscale : d * 8 = d * k * rowUnits raw := by
    rw [hkq]
    ring
  refine ⟨m, hm0, by nlinarith, by rw [hdiv, hm], ?_, ?_⟩
  · rw [hscale]
    exact hfrom.imp_left fun h => mul_le_mul_of_nonneg_right h huq.le
  · rw [hscale, ← add_one_mul]
    exact mul_lt_mul_of_pos_right hto huq

/-- Up to a degree wide, buckets are found by the degree and the part of it that a longitude lies
in. -/
theorem exists_narrow {lon : ℚ} {row raw : ℤ} (hraw : rowUnits raw ≤ 8)
    (hle : rowUnits row ≤ rowUnits raw) (h0 : -180 ≤ lon) (h1 : lon < 180) :
    ∃ column : ℤ, floorDegree lon = cellEighth row column / 8
      ∧ ((Bucket.eighth
          (truncate ((lon - (floorDegree lon : ℚ)) / ((rowUnits raw : ℚ) / 8))) : ℕ) : ℤ)
        = cellEighth row column % 8 / rowUnits row
      ∧ cellWest row column - snapTolerance < lon ∧ lon < cellWest row column + 1
      ∧ (rowUnits raw = rowUnits row → lon < cellWest row column + rowWidth row) := by
  obtain ⟨hlow, hhigh⟩ := floorDegree_mem h0 h1.le
  have hn0 : -180 ≤ floorDegree lon := le_floorDegree h0 h1.le (by push_cast; exact h0)
  have hn1 : floorDegree lon < 180 := floorDegree_lt h0 h1.le (by norm_num) (by push_cast; exact h1)
  obtain ⟨m, hm0, hm1, hm, hfrom, hto⟩ := exists_part hraw h0 h1.le
  have hparts : m * rowUnits row ≤ m * rowUnits raw := mul_le_mul_of_nonneg_left hle hm0
  obtain ⟨column, hdegree, hx, hwest⟩ := exists_column_of_part
    (rowUnits_dvd_eight (hle.trans hraw)) hn0 hn1 hm0 (by linarith)
  -- the row has buckets no wider than the ones looked up, so the part starts no further east
  have hpart : (m : ℚ) * rowUnits row ≤ m * rowUnits raw := by exact_mod_cast hparts
  have hpart0 : (0 : ℚ) ≤ m * rowUnits row := by
    exact_mod_cast mul_nonneg hm0 (rowUnits_pos row).le
  refine ⟨column, hdegree.symm, hm.trans hx.symm, ?_, ?_, ?_⟩
  · rw [hwest]
    rcases hfrom with h | rfl
    · linarith [snapTolerance_pos]
    · rw [Int.cast_zero, zero_mul, zero_div, add_zero]
      exact hlow
  · rw [hwest]
    linarith
  · intro heq
    rw [hwest]
    unfold rowWidth
    rw [heq] at hto
    linarith

/-- A bucket wider than a degree is two, four or twelve degrees wide. -/
theorem rowUnits_wide {row : ℤ} (h : 8 < rowUnits row) :
    ∃ k : ℤ, rowUnits row = 8 * k ∧ (k = 2 ∨ k = 4 ∨ k = 12) := by
  rcases rowUnits_cases row with hu | hu | hu | hu | hu | hu | hu <;> rw [hu] at h ⊢
  · omega
  · omega
  · omega
  · omega
  · exact ⟨2, by omega⟩
  · exact ⟨4, by omega⟩
  · exact ⟨12, by omega⟩

/-- A multiple of some degrees that no bucket of the row is wider than names a column. -/
theorem exists_column_of_multiple {row k q : ℤ} (hk : k = 2 ∨ k = 4 ∨ k = 12)
    (hle : rowUnits row ≤ 8 * k) (h0 : -180 ≤ q * k) (h1 : q * k + k ≤ 180) :
    ∃ column, cellEighth row column / 8 = q * k ∧ cellEighth row column % 8 = 0
      ∧ cellWest row column = q * k := by
  have hdvd : rowUnits row ∣ 8 * k := by
    rcases rowUnits_cases row with h | h | h | h | h | h | h <;> rw [h] at hle ⊢ <;>
      rcases hk with rfl | rfl | rfl <;> omega
  have hturn : 8 * k ∣ 1440 := by
    rcases hk with rfl | rfl | rfl <;> decide
  obtain ⟨column, hcolumn⟩ : ∃ column, cellEighth row column = 8 * (q * k) := by
    refine exists_column ?_ (by omega) (by omega)
    have hmul : 8 * (q * k) = 8 * k * q := by ring
    rw [hmul]
    exact (hdvd.mul_right q).add (hdvd.trans hturn)
  refine ⟨column, ?_, ?_, ?_⟩
  · rw [hcolumn]
    omega
  · rw [hcolumn]
    omega
  · unfold cellWest
    rw [hcolumn]
    push_cast
    ring

/-- Buckets wider than a degree are found by the multiple of their width that a longitude lies
above. -/
theorem exists_wide {lon : ℚ} {row raw : ℤ} (hraw : 8 < rowUnits raw)
    (hle : rowUnits row ≤ rowUnits raw) (h0 : -180 ≤ lon) (h1 : lon < 180) :
    ∃ column : ℤ, Bucket.wideLon lon ((rowUnits raw : ℚ) / 8) = cellEighth row column / 8
      ∧ cellEighth row column % 8 = 0
      ∧ cellWest row column - snapTolerance < lon ∧ lon < cellWest row column + 12
      ∧ (rowUnits raw = rowUnits row → lon < cellWest row column + rowWidth row) := by
  obtain ⟨k, hk, hcases⟩ := rowUnits_wide hraw
  obtain ⟨q, hq, hlow, hhigh, hfrom, hto⟩ := exists_wideLon hcases h0 h1
  have hspan : (rowUnits raw : ℚ) / 8 = k := by
    rw [hk]
    push_cast
    ring
  obtain ⟨column, hdegree, hrest, hwest⟩ :=
    exists_column_of_multiple hcases (hle.trans_eq hk) hlow hhigh
  have hk12 : (k : ℚ) ≤ 12 := by
    have : k ≤ 12 := by omega
    exact_mod_cast this
  refine ⟨column, ?_, hrest, ?_, ?_, ?_⟩
  · rw [hspan, hq, hdegree]
  · rw [hwest]
    exact hfrom
  · rw [hwest]
    linarith
  · intro heq
    rw [hwest]
    unfold rowWidth
    rw [← heq, hspan]
    exact hto

end Orthomosaic
