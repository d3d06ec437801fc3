import Orthomosaic.Proofs.Bucket.Rounded
import Orthomosaic.Proofs.Bucket.Sibling

/-!
# The canonical buckets

Many names of the type `Bucket` name no bucket of the scheme: a column may lie beyond the end of its
degree, a wide bucket may start between two multiples of its width. `Bucket.Canonical` says which
names are in use. Lookups return no others, whatever doubles they are given and however these are
rounded on the way, and in exact arithmetic the canonical buckets are the cells of the globe, each
the owner of the points in it.

The two halves meet in the widths. A lookup counts columns in the width at the latitude itself, the
definition in the width of the bucket's own row, and the second divides the first: whole degrees are
the only latitudes at which widths change, and snapping up to one leads to narrower buckets only.
-/

namespace Orthomosaic.Bucket

open Scalar
open Binary64 hiding truncate turnPart nearest

/-- The degrees of a bucket are those of the globe. -/
structure OnGlobe (b : Bucket) : Prop where
  le_lon : -180 ≤ b.lon
  lon_le : b.lon ≤ 179
  le_lat : -90 ≤ b.lat
  lat_le : b.lat ≤ 89

/-- A name that is in use: degrees of the globe, and a column within its degree or, for a bucket
wider than a degree, a multiple of the width. The rows are those of a degree by their type. -/
structure Canonical (b : Bucket) : Prop extends OnGlobe b where
  narrow : (b.width : ℚ) ≤ 1 → ((b.x : ℕ) : ℚ) * b.width < 1
  wide : 1 < (b.width : ℚ) → b.x = 0 ∧ ∃ k : ℤ, (b.lon : ℚ) = k * b.width

/-- The western edge. -/
def west (b : Bucket) : ℚ :=
  b.lon + ((b.x : ℕ) : ℚ) * b.width

/-- The southern edge. -/
def south (b : Bucket) : ℚ :=
  b.lat + ((b.y : ℕ) : ℚ) / 8

/-- A point that lies in a bucket and keeps a distance from its edges. Its longitude may be spelled
in any turn. -/
structure Inside (b : Bucket) (margin lon lat : ℚ) : Prop where
  from_south : b.south + margin ≤ lat
  from_north : lat ≤ b.south + 1 / 8 - margin
  from_sides : ∃ t, margin ≤ t ∧ t ≤ b.width - margin ∧ SameMeridian (b.west + t) lon

/-! ## Widths of whole degrees -/

/-- The widths that occur divide one another. -/
theorem rowUnits_dvd {row row' : ℤ} (h : rowUnits row ≤ rowUnits row') :
    rowUnits row ∣ rowUnits row' := by
  have hchain : ∀ u ∈ bandUnits, ∀ v ∈ bandUnits, u ≤ v → u ∣ v := by decide
  exact hchain _ (rowUnits_mem row) _ (rowUnits_mem row') h

theorem rowUnits_degree (row : ℤ) : rowUnits (8 * (row / 8)) = rowUnits row := by
  unfold rowUnits
  iterate 12 refine if_congr (by omega) rfl ?_
  rfl

theorem rowUnits_eq_of_degree {row degree : ℤ} (h : row / 8 = degree + 90) :
    rowUnits row = rowUnits (8 * (degree + 90)) := by
  rw [← h, rowUnits_degree]

/-- South of the equator the width of a degree divides that of the degree south of it. -/
theorem rowUnits_succ_dvd {degree : ℤ} (h : degree < 0) :
    rowUnits (8 * (degree + 1 + 90)) ∣ rowUnits (8 * (degree + 90)) := by
  have hlast : rowUnits (8 * (degree + 1 + 90) - 1) = rowUnits (8 * (degree + 90)) :=
    rowUnits_eq_of_degree (by omega)
  rw [← hlast]
  exact rowUnits_dvd (rowUnits_le_south (by omega))

/-- The width of the buckets at a latitude is that of its degree. -/
theorem rowUnits_rowOf (lat : ℚ) : rowUnits (rowOf lat) = rowUnits (8 * (⌊lat⌋ + 90)) := by
  have hlow := (degree_le_iff ⌊lat⌋ lat).1 (Int.floor_le lat)
  have hhigh := mt (degree_le_iff (⌊lat⌋ + 1) lat).2
    (not_le.2 (by push_cast; exact Int.lt_floor_add_one lat))
  exact rowUnits_eq_of_degree (by omega)

/-- The width of a bucket is that of its degree of latitude. -/
theorem width_eq (b : Bucket) : (b.width : ℚ) = (rowUnits (8 * (b.lat + 90)) : ℚ) / 8 := by
  have hy : (b.y : ℕ) < 8 := b.y.isLt
  have hrow : rowOf (b.centerLat : ℚ) = 8 * (b.lat + 90) + (b.y : ℕ) := by
    rw [rowOf, centerLat_eq, Int.floor_eq_iff]
    push_cast
    constructor <;> linarith
  have hdegree : rowUnits (8 * (b.lat + 90) + (b.y : ℕ)) = rowUnits (8 * (b.lat + 90)) :=
    rowUnits_eq_of_degree (by omega)
  unfold width
  rw [bucketSpan_eq, hrow, hdegree]

/-! ## Lookups on doubles -/

/-- What a lookup finds for the longitude: a degree of the globe and, where buckets are up to a
degree wide, a column of that degree. -/
theorem degree_and_column (lon : Float) :
    (-180 ≤ floorDegree (normalizeLon lon) ∧ floorDegree (normalizeLon lon) < 180)
      ∧ ∀ (span : Float) (j : ℕ), j ≤ 3 → Denotes span (1 / 2 ^ j) →
        (eighth (truncate ((normalizeLon lon - ((floorDegree (normalizeLon lon) : ℤ) : Float))
          / span)) : ℕ) < 2 ^ j := by
  rcases normalizeLon_spec lon with hnan | ⟨q, hq, h0, h1⟩
  · rw [hnan]
    refine ⟨⟨by decide +kernel, by decide +kernel⟩, fun span j _ _ => ?_⟩
    have hoffset : (nan - ((floorDegree nan : ℤ) : Float)) / span = nan :=
      (congrArg (· / span) (nan_sub _)).trans (nan_div span)
    rw [hoffset]
    exact Nat.pow_pos (by norm_num)
  · refine ⟨floorDegree_range (n := 180) hq (by norm_num) le_rfl (by push_cast; exact h0)
      (by push_cast; exact h1), fun span j hj hspan => eighth_lt hq h0 h1 hspan hj⟩

/-- What a lookup finds for the latitude: a degree of the globe, and a width that is a multiple of
the width of that degree. -/
theorem degree_and_width (lat : Float) :
    (-90 ≤ floorDegree (between (-90) poleLimit lat)
        ∧ floorDegree (between (-90) poleLimit lat) < 90)
      ∧ ∃ raw, Denotes (bucketSpan (between (-90) poleLimit lat)) ((rowUnits raw : ℚ) / 8)
        ∧ rowUnits (8 * (floorDegree (between (-90) poleLimit lat) + 90)) ∣ rowUnits raw := by
  rcases between_spec lat with hnan | ⟨q, hq, h0, h1⟩
  · -- what is no number is looked up in the widest band, in the degree below the equator
    rw [hnan]
    refine ⟨⟨by decide +kernel, by decide +kernel⟩, 1439, ?_, by decide +kernel⟩
    have hspan : Denotes (bucketSpan nan) (12 : ℕ) := denotes_literal (k := 12) (by norm_num)
    have hunits : (rowUnits 1439 : ℚ) / 8 = (12 : ℕ) := by
      rw [show rowUnits 1439 = 96 by decide]
      norm_num
    rwa [hunits]
  · refine ⟨floorDegree_range (n := 90) hq (by norm_num) (by norm_num) (by push_cast; exact h0)
      (by push_cast; exact h1), rowOf q, bucketSpan_eq q ▸ denotes_bucketSpan hq, ?_⟩
    rw [rowUnits_rowOf]
    rcases (floorDegree_spec hq (by linarith) (by linarith)).1 with heq | ⟨hneg, heq⟩ <;> rw [heq]
    exact rowUnits_succ_dvd (Int.floor_lt.2 (by exact_mod_cast hneg))

/-- A column counted in a multiple of the width, as many of which make a degree. -/
theorem canonical_of_column {b : Bucket} {units : ℤ} {j : ℕ} (h : b.OnGlobe)
    (hdvd : rowUnits (8 * (b.lat + 90)) ∣ units) (hunits : units * 2 ^ j = 8)
    (hx : (b.x : ℕ) < 2 ^ j) : b.Canonical := by
  have hpow : (0 : ℤ) < 2 ^ j := by positivity
  have hpos : 0 < units := by nlinarith
  have hle : rowUnits (8 * (b.lat + 90)) ≤ units := Int.le_of_dvd hpos hdvd
  have hx' : ((b.x : ℕ) : ℤ) < 2 ^ j := by exact_mod_cast hx
  have hless : ((b.x : ℕ) : ℤ) * rowUnits (8 * (b.lat + 90)) < 8 :=
    calc
      ((b.x : ℕ) : ℤ) * rowUnits (8 * (b.lat + 90)) ≤ (b.x : ℕ) * units :=
        mul_le_mul_of_nonneg_left hle (Int.natCast_nonneg _)
      _ < 2 ^ j * units := mul_lt_mul_of_pos_right hx' hpos
      _ = 8 := by rw [mul_comm, hunits]
  have hless' : ((b.x : ℕ) : ℚ) * rowUnits (8 * (b.lat + 90)) < 8 := by exact_mod_cast hless
  have height : units ≤ 8 := by nlinarith
  have hle' : (rowUnits (8 * (b.lat + 90)) : ℚ) ≤ 8 := by exact_mod_cast hle.trans height
  refine ⟨h, fun _ => ?_, fun hwide => ?_⟩
  · rw [width_eq]
    linarith
  · rw [width_eq] at hwide
    linarith

/-- A start at a multiple of a multiple of the width. -/
theorem canonical_of_multiple {b : Bucket} {k : ℤ} (h : b.OnGlobe)
    (hdvd : rowUnits (8 * (b.lat + 90)) ∣ 8 * k) (hx : b.x = 0) (hlon : k ∣ b.lon) :
    b.Canonical := by
  refine ⟨h, fun _ => ?_, fun _ => ⟨hx, ?_⟩⟩
  · rw [hx]
    norm_num
  · obtain ⟨n, hn⟩ := hdvd.trans (mul_dvd_mul_left 8 hlon)
    have hn' : (8 : ℚ) * b.lon = rowUnits (8 * (b.lat + 90)) * n := by exact_mod_cast hn
    refine ⟨n, ?_⟩
    rw [width_eq]
    linarith

/-- Widths up to a degree are halves of a degree, halved again. -/
theorem exists_mul_two_pow {row : ℤ} (h : rowUnits row ≤ 8) :
    ∃ j ≤ 3, rowUnits row * 2 ^ j = 8 := by
  rcases rowUnits_cases row with hu | hu | hu | hu | hu | hu | hu <;> rw [hu] at h ⊢
  · exact ⟨3, by norm_num⟩
  · exact ⟨2, by norm_num⟩
  · exact ⟨1, by norm_num⟩
  · exact ⟨0, by norm_num⟩
  all_goals omega

/-- Whatever doubles are looked up, the bucket is canonical. -/
theorem canonical_containing (lon lat : Float) : (containing lon lat).Canonical := by
  obtain ⟨⟨hlon0, hlon1⟩, hcolumn⟩ := degree_and_column lon
  obtain ⟨⟨hlat0, hlat1⟩, raw, hspan, hdvd⟩ := degree_and_width lat
  have hone : Denotes (1 : Float) 1 := denotes_literal (k := 1) (by norm_num)
  by_cases hnarrow : bucketSpan (between (-90) poleLimit lat) ≤ (1 : Float)
  · have hunits : rowUnits raw ≤ 8 := by
      have := (hspan.le_iff hone).1 hnarrow
      have : (rowUnits raw : ℚ) ≤ 8 := by linarith
      exact_mod_cast this
    obtain ⟨j, hj, hpow⟩ := exists_mul_two_pow hunits
    have hpart : (rowUnits raw : ℚ) / 8 = 1 / 2 ^ j := by
      have : (rowUnits raw : ℚ) * 2 ^ j = 8 := by exact_mod_cast hpow
      rw [div_eq_div_iff (by norm_num) (by positivity), this, one_mul]
    have hlon : (containing lon lat).lon = floorDegree (normalizeLon lon) := if_pos hnarrow
    refine canonical_of_column ⟨?_, ?_, hlat0, Int.lt_add_one_iff.1 hlat1⟩ hdvd hpow ?_
    · rw [hlon]
      exact hlon0
    · rw [hlon]
      exact Int.lt_add_one_iff.1 hlon1
    · exact (congrArg Fin.val (if_pos hnarrow)).trans_lt (hcolumn _ j hj (hpart ▸ hspan))
  · have hunits : 8 < rowUnits raw := by
      have := not_le.1 (mt (hspan.le_iff hone).2 hnarrow)
      have : (8 : ℚ) < rowUnits raw := by linarith
      exact_mod_cast this
    obtain ⟨k, hk, hcases⟩ := rowUnits_wide hunits
    obtain ⟨c, hc⟩ : k ∣ 180 := by
      rcases hcases with rfl | rfl | rfl <;> norm_num
    have hspan' : Denotes (bucketSpan (between (-90) poleLimit lat)) k := by
      rw [hk] at hspan
      push_cast at hspan
      rwa [mul_div_cancel_left₀ _ (by norm_num)] at hspan
    obtain ⟨hmul, hlow, hhigh⟩ :=
      wideLon_spec hspan' (by omega) (by omega) hc.symm hlon0 hlon1
    have hlon : (containing lon lat).lon
        = wideLon (normalizeLon lon) (bucketSpan (between (-90) poleLimit lat)) := if_neg hnarrow
    rw [hk] at hdvd
    refine canonical_of_multiple ⟨?_, ?_, hlat0, Int.lt_add_one_iff.1 hlat1⟩ hdvd
      (if_neg hnarrow) ?_
    · rw [hlon]
      exact hlow
    · rw [hlon]
      exact Int.lt_add_one_iff.1 hhigh
    · rw [hlon]
      exact hmul

/-! ## Canonical buckets as cells -/

variable {b b' : Bucket}

/-- A column of a canonical bucket up to a degree wide ends within the degree. -/
theorem Canonical.column_le (h : b.Canonical) (hunits : rowUnits (8 * (b.lat + 90)) ≤ 8) :
    ((b.x : ℕ) : ℤ) * rowUnits (8 * (b.lat + 90)) + rowUnits (8 * (b.lat + 90)) ≤ 8 := by
  have hunits' : (rowUnits (8 * (b.lat + 90)) : ℚ) ≤ 8 := by exact_mod_cast hunits
  have hless := h.narrow (by rw [width_eq]; linarith)
  rw [width_eq] at hless
  have hless' : ((b.x : ℕ) : ℤ) * rowUnits (8 * (b.lat + 90)) < 8 := by
    have : ((b.x : ℕ) : ℚ) * rowUnits (8 * (b.lat + 90)) < 8 := by linarith
    exact_mod_cast this
  obtain ⟨parts, hparts⟩ := rowUnits_dvd_eight hunits
  have hpos := rowUnits_pos (8 * (b.lat + 90))
  have hx : ((b.x : ℕ) : ℤ) + 1 ≤ parts := by nlinarith
  nlinarith

/-- A canonical bucket is a cell of the globe. -/
theorem Canonical.exists_cell (h : b.Canonical) :
    ∃ row column, 0 ≤ row ∧ row < 1440 ∧ b = ofCell row column ∧ cellWest row column = b.west
      ∧ rowSouth row = b.south ∧ rowWidth row = b.width := by
  have hy : (b.y : ℕ) < 8 := b.y.isLt
  have hle_lon := h.le_lon
  have hlon_le := h.lon_le
  have hle_lat := h.le_lat
  have hlat_le := h.lat_le
  have hwidth := width_eq b
  obtain ⟨row, hrow⟩ : ∃ row : ℤ, row = 8 * (b.lat + 90) + (b.y : ℕ) := ⟨_, rfl⟩
  have hunits : rowUnits row = rowUnits (8 * (b.lat + 90)) := rowUnits_eq_of_degree (by omega)
  have hrowWidth : rowWidth row = b.width := by
    rw [hwidth, ← hunits]
    rfl
  have hsouth : rowSouth row = b.south := by
    unfold rowSouth south
    rw [hrow]
    push_cast
    ring
  rcases le_or_gt (rowUnits row) 8 with hnarrow | hwide
  · obtain ⟨column, hdegree, hx, hwest⟩ := exists_column_of_part (rowUnits_dvd_eight hnarrow)
      hle_lon (by omega) (Int.natCast_nonneg (b.x : ℕ))
      (by rw [hunits] at hnarrow ⊢; exact h.column_le hnarrow)
    refine ⟨row, column, by omega, by omega,
      eq_ofCell hdegree.symm (by omega) hx.symm (by omega), ?_, hsouth, hrowWidth⟩
    rw [hwest]
    unfold west
    rw [hwidth, ← hunits]
    push_cast
    ring
  · obtain ⟨k, hk, hcases⟩ := rowUnits_wide hwide
    have hspan : (b.width : ℚ) = k := by
      rw [hwidth, ← hunits, hk]
      push_cast
      ring
    have hkq : (1 : ℚ) < k := by exact_mod_cast (show 1 < k by omega)
    obtain ⟨hx, q, hq⟩ := h.wide (hspan ▸ hkq)
    have hlon : b.lon = q * k := by
      rw [hspan] at hq
      exact_mod_cast hq
    obtain ⟨column, hdegree, hrest, hwest⟩ := exists_column_of_multiple hcases hk.le
      (hlon ▸ hle_lon) (show q * k + k ≤ 180 by rcases hcases with rfl | rfl | rfl <;> omega)
    refine ⟨row, column, by omega, by omega,
      eq_ofCell (hlon.trans hdegree.symm) (by omega) ?_ (by omega), ?_, hsouth, hrowWidth⟩
    · rw [hrest, Int.zero_ediv, hx]
      rfl
    · rw [hwest]
      unfold west
      rw [hx, hlon]
      norm_num

/-- The cells of the globe are canonical. -/
theorem canonical_ofCell {row : ℤ} (h0 : 0 ≤ row) (h1 : row < 1440) (column : ℤ) :
    (ofCell row column).Canonical := by
  obtain ⟨hlow, hhigh⟩ := cellEighth_mem row column
  have hpos := rowUnits_pos row
  have hunits : rowUnits (8 * ((ofCell row column).lat + 90)) = rowUnits row :=
    (rowUnits_eq_of_degree (sub_add_cancel (row / 8) 90).symm).symm
  have hx := x_ofCell row column
  have hglobe : (ofCell row column).OnGlobe := by
    refine ⟨?_, ?_, ?_, ?_⟩
    · change -180 ≤ cellEighth row column / 8
      omega
    · change cellEighth row column / 8 ≤ 179
      omega
    · change -90 ≤ row / 8 - 90
      omega
    · change row / 8 - 90 ≤ 89
      omega
  rcases le_or_gt (rowUnits row) 8 with hnarrow | hwide
  · obtain ⟨j, -, hpow⟩ := exists_mul_two_pow hnarrow
    refine canonical_of_column hglobe hunits.dvd hpow ?_
    have hpart := cellEighth_emod row column
    rw [← hx] at hpart
    have hless : ((ofCell row column).x : ℕ) * rowUnits row < 2 ^ j * rowUnits row := by
      rw [hpart, mul_comm, hpow]
      omega
    exact_mod_cast lt_of_mul_lt_mul_right hless hpos.le
  · obtain ⟨k, hk, hcases⟩ := rowUnits_wide hwide
    refine canonical_of_multiple hglobe (hunits.trans hk).dvd ?_ ?_
    · rw [Int.ediv_eq_zero_of_lt (by omega) (by omega)] at hx
      exact_mod_cast hx
    · change k ∣ cellEighth row column / 8
      have hturn : k ∣ 180 := by
        rcases hcases with rfl | rfl | rfl <;> norm_num
      have hstart : cellEighth row column = 8 * (column % rowColumns row * k - 180) := by
        unfold cellEighth
        rw [hk]
        ring
      rw [hstart, Int.mul_ediv_cancel_left _ (by norm_num)]
      exact (dvd_mul_left k _).sub hturn

/-- The rectangle of a canonical bucket. -/
theorem Canonical.bounds_eq (h : b.Canonical) :
    (b.bounds : Bounds ℚ) = ⟨b.west, b.width, b.south, b.south + 1 / 8⟩ := by
  obtain ⟨row, column, -, -, hcell, hwest, hsouth, hwidth⟩ := h.exists_cell
  have hbounds := bounds_ofCell row column
  rw [rowSouth_succ, ← hcell, hwest, hsouth, hwidth] at hbounds
  exact hbounds

/-- A point that keeps the snapping tolerance from the edges of a canonical bucket is found in it.
-/
theorem Canonical.containing_eq (h : b.Canonical) {lon lat : ℚ}
    (hpoint : b.Inside snapTolerance lon lat) : containing lon lat = b := by
  have htol := snapTolerance_pos
  obtain ⟨row, column, h0, h1, hcell, hwest, hsouth, hwidth⟩ := h.exists_cell
  obtain ⟨t, ht0, ht1, hlon⟩ := hpoint.from_sides
  have hfrom := hpoint.from_south
  have hto := hpoint.from_north
  rw [hcell]
  refine containing_of_interior h0 h1 ?_ ?_ (htol.le.trans ht0) ?_ (hwest.symm ▸ hlon)
  · linarith
  · rw [rowSouth_succ]
    linarith
  · rw [hwidth]
    exact ht1

/-- Canonical buckets do not overlap: a point is inside one of them only. -/
theorem Canonical.eq_of_inside (h : b.Canonical) (h' : b'.Canonical) {margin lon lat : ℚ}
    (hmargin : 0 < margin) (hpoint : b.Inside margin lon lat) (hpoint' : b'.Inside margin lon lat) :
    b = b' := by
  obtain ⟨row, column, h0, h1, hcell, hwest, hsouth, hwidth⟩ := h.exists_cell
  obtain ⟨row', column', h0', h1', hcell', hwest', hsouth', hwidth'⟩ := h'.exists_cell
  have hrow : rowOf lat = row := rowOf_eq (by linarith [hpoint.from_south])
    (by linarith [hpoint.from_north, rowSouth_succ row])
  have hrow' : rowOf lat = row' := rowOf_eq (by linarith [hpoint'.from_south])
    (by linarith [hpoint'.from_north, rowSouth_succ row'])
  obtain rfl : row = row' := hrow.symm.trans hrow'
  obtain ⟨t, ht0, ht1, hlon⟩ := hpoint.from_sides
  obtain ⟨t', ht0', ht1', hlon'⟩ := hpoint'.from_sides
  rw [← hwest] at hlon
  rw [← hwest'] at hlon'
  rw [hcell, hcell']
  exact ofCell_congr (cellWest_eq_of_lt (hlon.trans hlon'.symm) (by linarith) (by linarith))

/-- The edges of the bucket of a cell. -/
theorem edges_ofCell {row : ℤ} (h0 : 0 ≤ row) (h1 : row < 1440) (column : ℤ) :
    (ofCell row column).west = cellWest row column ∧ (ofCell row column).south = rowSouth row := by
  have hbounds := (canonical_ofCell h0 h1 column).bounds_eq.symm.trans (bounds_ofCell row column)
  injection hbounds with hwest _ hsouth
  exact ⟨hwest, hsouth⟩

/-- A latitude is in a row of the globe, both poles included. -/
theorem exists_row_of_mem {lat : ℚ} (h0 : -90 ≤ lat) (h1 : lat ≤ 90) :
    ∃ row, 0 ≤ row ∧ row < 1440 ∧ rowSouth row ≤ lat ∧ lat ≤ rowSouth row + 1 / 8 := by
  have hlow := Int.floor_le (8 * (lat + 90))
  have hhigh := Int.lt_floor_add_one (8 * (lat + 90))
  have hrow0 : 0 ≤ ⌊8 * (lat + 90)⌋ := Int.floor_nonneg.2 (by linarith)
  unfold rowSouth
  rcases lt_or_ge ⌊8 * (lat + 90)⌋ 1440 with hrow | hrow
  · exact ⟨⌊8 * (lat + 90)⌋, hrow0, hrow, by linarith, by linarith⟩
  · -- the pole lies on the northern edge of the last row
    have hpole : (1440 : ℚ) ≤ ⌊8 * (lat + 90)⌋ := by exact_mod_cast hrow
    exact ⟨1439, by norm_num, by norm_num, by push_cast; linarith, by push_cast; linarith⟩

/-- Canonical buckets cover the globe. -/
theorem exists_canonical_inside (lon : ℚ) {lat : ℚ} (h0 : -90 ≤ lat) (h1 : lat ≤ 90) :
    ∃ b : Bucket, b.Canonical ∧ b.Inside 0 lon lat := by
  obtain ⟨row, hrow0, hrow1, hsouth, hnorth⟩ := exists_row_of_mem h0 h1
  have hw : 0 < rowWidth row := by linarith [le_rowWidth row]
  have hlow := Int.floor_le ((lon + 180) / rowWidth row)
  have hhigh := Int.lt_floor_add_one ((lon + 180) / rowWidth row)
  rw [le_div_iff₀ hw] at hlow
  rw [div_lt_iff₀ hw] at hhigh
  generalize ⌊(lon + 180) / rowWidth row⌋ = column at hlow hhigh
  obtain ⟨hwest, hsouth'⟩ := edges_ofCell hrow0 hrow1 column
  refine ⟨ofCell row column, canonical_ofCell hrow0 hrow1 column, ?_, ?_,
    lon + 180 - column * rowWidth row, ?_, ?_, ?_⟩
  · rw [hsouth']
    linarith
  · rw [hsouth']
    linarith
  · linarith
  · rw [width_ofCell]
    linarith
  · have hstart := (sameMeridian_cellWest row column).symm.add_right
      (lon + 180 - column * rowWidth row)
    rw [hwest]
    convert hstart using 1
    ring

/-- A bucket is found in exact arithmetic exactly when it is canonical. -/
theorem canonical_iff_containing (b : Bucket) :
    b.Canonical ↔ ∃ lon lat : ℚ, containing lon lat = b := by
  constructor
  · intro h
    have htol := snapTolerance_eq
    have hw : (1 : ℚ) / 8 ≤ b.width := by
      obtain ⟨row, _, -, -, -, -, -, hwidth⟩ := h.exists_cell
      exact (le_rowWidth row).trans_eq hwidth
    refine ⟨b.west + b.width / 2, b.south + 1 / 16,
      h.containing_eq ⟨?_, ?_, b.width / 2, ?_, ?_, ?_⟩⟩
    · linarith
    · linarith
    · linarith
    · linarith
    · exact SameMeridian.refl _
  · rintro ⟨lon, lat, rfl⟩
    obtain ⟨row, column, h0, h1, hcell⟩ := exists_globe_cell lon lat
    rw [hcell]
    exact canonical_ofCell h0 h1 column

theorem Canonical.sibling_zero (h : b.Canonical) : b.sibling ℚ 0 0 = b := by
  obtain ⟨row, column, h0, h1, hcell, -, -, -⟩ := h.exists_cell
  rw [hcell, sibling_east h0 h1, add_zero]

/-! ## The tiling -/

/-- Canonical buckets are what lookups and steps return, whatever doubles these are run on. In exact
arithmetic they are all that lookups return, they cover the globe without overlapping, each is the
rectangle that its name says, and each is found from every point in it that keeps the snapping
tolerance from its edges. -/
theorem canonical_tiling :
    (∀ lon lat : Float, (containing lon lat).Canonical)
    ∧ (∀ b : Bucket, b.Canonical → ∀ columns rows : ℤ, (b.sibling Float columns rows).Canonical)
    ∧ (∀ b : Bucket, b.Canonical ↔ ∃ lon lat : ℚ, containing lon lat = b)
    ∧ (∀ lon lat : ℚ, -90 ≤ lat → lat ≤ 90 → ∃ b : Bucket, b.Canonical ∧ b.Inside 0 lon lat)
    ∧ ∀ b : Bucket, b.Canonical →
        (b.bounds : Bounds ℚ) = ⟨b.west, b.width, b.south, b.south + 1 / 8⟩
        ∧ (∀ lon lat : ℚ, b.Inside snapTolerance lon lat → containing lon lat = b)
        ∧ (∀ b' : Bucket, b'.Canonical → ∀ margin lon lat : ℚ, 0 < margin →
            b.Inside margin lon lat → b'.Inside margin lon lat → b = b')
        ∧ b.sibling ℚ 0 0 = b := by
  refine ⟨canonical_containing, fun b _ columns rows => canonical_containing _ _,
    canonical_iff_containing, fun lon lat h0 h1 => exists_canonical_inside lon h0 h1, fun b h => ?_⟩
  exact ⟨h.bounds_eq, fun _ _ hpoint => h.containing_eq hpoint,
    fun _ h' _ _ _ hmargin hpoint hpoint' => h.eq_of_inside h' hmargin hpoint hpoint',
    h.sibling_zero⟩

/-- A wide bucket next to the south pole, and a point in it whose longitude is a turn further. -/
theorem canonical_tiling_near_pole :
    (⟨8, -89, 0, 0⟩ : Bucket).Canonical
      ∧ (⟨8, -89, 0, 0⟩ : Bucket).Inside snapTolerance 370 (-88.95)
      ∧ containing (370 : ℚ) (-88.95) = ⟨8, -89, 0, 0⟩
      ∧ (⟨8, -89, 0, 0⟩ : Bucket).sibling ℚ 0 0 = ⟨8, -89, 0, 0⟩
      ∧ ((⟨8, -89, 0, 0⟩ : Bucket).sibling Float 3 (-1)).Canonical := by
  have hcanonical : (⟨8, -89, 0, 0⟩ : Bucket).Canonical :=
    canonical_of_multiple (k := 4) ⟨by decide, by decide, by decide, by decide⟩ (by decide) rfl
      (by decide)
  have htol := snapTolerance_eq
  have hwidth : ((⟨8, -89, 0, 0⟩ : Bucket).width : ℚ) = 4 := by
    rw [width_eq, show rowUnits (8 * (-89 + 90)) = 32 by decide]
    norm_num
  have hwest : (⟨8, -89, 0, 0⟩ : Bucket).west = 8 := by
    unfold west
    norm_num
  have hsouth : (⟨8, -89, 0, 0⟩ : Bucket).south = -89 := by
    unfold south
    norm_num
  have hpoint : (⟨8, -89, 0, 0⟩ : Bucket).Inside snapTolerance 370 (-88.95) := by
    refine ⟨?_, ?_, 2, ?_, ?_, 1, ?_⟩
    · rw [hsouth, htol]
      norm_num
    · rw [hsouth, htol]
      norm_num
    · rw [htol]
      norm_num
    · rw [hwidth, htol]
      norm_num
    · rw [hwest]
      norm_num
  obtain ⟨-, hsteps, -, -, hown⟩ := canonical_tiling
  obtain ⟨-, hfound, -, hstay⟩ := hown _ hcanonical
  exact ⟨hcanonical, hpoint, hfound _ _ hpoint, hstay, hsteps _ hcanonical 3 (-1)⟩

end Orthomosaic.Bucket
