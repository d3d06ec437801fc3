import Orthomosaic.Proofs.Bucket.Location

/-!
# Where the bucket of a point does not hold it

`Bucket.containing` counts columns in the width of the buckets at the latitude itself, while the
bucket it names is as wide as its own row. A latitude less than the snapping tolerance south of a
whole degree is taken up to that degree, and at the southern edge of a band, where buckets get
narrower going north, the two widths then differ: a column counted in wide steps is laid out in
narrow ones, and the point is left east of the bucket by up to eight degrees.

`Bucket.near_bounds_containing_iff` says for every point whether its bucket holds it.
-/

namespace Orthomosaic.Bucket

open Scalar

/-- How far a longitude lies east of the whole degree that columns are counted from, or of the
multiple of the width where buckets are wider than a degree. -/
def degreeOffset (lon span : ℚ) : ℚ :=
  lon - ((if span ≤ 1 then floorDegree lon else wideLon lon span : ℤ) : ℚ)

/-- The offset of a point, where buckets are as wide as at the latitude itself. -/
def pointOffset (lon lat : ℚ) : ℚ :=
  degreeOffset (normalizeLon lon) (bucketSpan lat)

/-- The number of whole widths in an offset, an offset just west of the degree counting as none. -/
def columnsBefore (offset span : ℚ) : ℤ :=
  max 0 ⌊offset / span⌋

/-- The whole degrees at which the buckets get narrower going north. -/
def narrowingEdges : List ℤ :=
  [-89, -86, -83, -76, -62, -22]

/-- A latitude that is taken up into the next band, being less than the snapping tolerance south of
it, although the buckets at the latitude itself are wider than those of that band. -/
def SnappedToBand (lat : ℚ) : Prop :=
  ∃ edge ∈ narrowingEdges, (edge : ℚ) - snapTolerance < lat ∧ lat < edge

/-- The columns that are counted in the width at the latitude itself end, when they are as wide as
the bucket that was found, more than the snapping tolerance short of the longitude. -/
def Overshoots (lon lat : ℚ) : Prop :=
  ((columnsBefore (pointOffset lon lat) (bucketSpan lat) + 1 : ℤ) : ℚ) * (containing lon lat).width
    + snapTolerance < pointOffset lon lat

instance (lat : ℚ) : Decidable (SnappedToBand lat) :=
  inferInstanceAs (Decidable (∃ edge ∈ narrowingEdges, _ ∧ _))

instance (lon lat : ℚ) : Decidable (Overshoots lon lat) :=
  inferInstanceAs (Decidable (_ < _))

/-! ## The column of a bucket -/

/-- The number of whole widths is known from two inequalities. -/
theorem columnsBefore_eq {d w : ℚ} {m : ℤ} (hw : 0 < w) (hm : 0 ≤ m) (hfrom : m * w ≤ d ∨ m = 0)
    (hto : d < m * w + w) : columnsBefore d w = m := by
  have hlt : ⌊d / w⌋ < m + 1 := by
    rw [Int.floor_lt, div_lt_iff₀ hw]
    push_cast
    linarith
  unfold columnsBefore
  rcases hfrom with hle | rfl
  · have : m ≤ ⌊d / w⌋ := by
      rw [Int.le_floor, le_div_iff₀ hw]
      exact hle
    omega
  · omega

/-- An offset ends within the width that follows the whole ones before it. -/
theorem lt_columnsBefore_add_one_mul {d w : ℚ} (hw : 0 < w) :
    d < ((columnsBefore d w + 1 : ℤ) : ℚ) * w := by
  have hfloor : d / w < ((⌊d / w⌋ + 1 : ℤ) : ℚ) := by
    push_cast
    exact Int.lt_floor_add_one _
  have hle : ((⌊d / w⌋ + 1 : ℤ) : ℚ) ≤ ((columnsBefore d w + 1 : ℤ) : ℚ) := by
    exact_mod_cast add_le_add_left (le_max_right 0 ⌊d / w⌋) 1
  exact (div_lt_iff₀ hw).1 (hfloor.trans_le hle)

/-- Below the pole and at it the buckets have one width. -/
theorem bucketSpan_min_poleLimit (lat : ℚ) : bucketSpan (min poleLimit lat) = bucketSpan lat := by
  rcases le_total lat poleLimit with h | h
  · rw [min_eq_right h]
  · have hpole : ((instOfNat 89).ofNat : ℚ) ≤ poleLimit := by
      rw [literal_eq, poleLimit_eq]
      norm_num
    rw [min_eq_left h]
    unfold bucketSpan
    rw [if_pos hpole, if_pos (hpole.trans h)]

theorem bucketSpan_pos (lat : ℚ) : 0 < bucketSpan lat := by
  have h : (0 : ℚ) < rowUnits (rowOf lat) := by exact_mod_cast rowUnits_pos (rowOf lat)
  rw [bucketSpan_eq]
  linarith

/-- The longitude from which the columns of a bucket are counted. -/
theorem lon_containing {lat : ℚ} (lon : ℚ) (hlat : -90 ≤ lat) :
    (((containing lon lat).lon : ℤ) : ℚ)
      = normalizeLon lon - pointOffset lon lat := by
  rw [containing_eq lon hlat, bucketSpan_min_poleLimit]
  unfold pointOffset degreeOffset
  ring

/-- The column of a bucket is the number of whole widths, as read off the latitude itself, between
the degree and the longitude. -/
theorem x_containing {lat : ℚ} (lon : ℚ) (hlat : -90 ≤ lat) :
    (((containing lon lat).x : ℕ) : ℤ)
      = columnsBefore (pointOffset lon lat) (bucketSpan lat) := by
  have hL0 := le_normalizeLon lon
  have hL1 := normalizeLon_lt lon
  have hpos := bucketSpan_pos lat
  rw [containing_eq lon hlat, bucketSpan_min_poleLimit]
  unfold pointOffset degreeOffset
  generalize normalizeLon lon = L at *
  by_cases hspan : bucketSpan lat ≤ 1
  · have hnarrow := (bucketSpan_le_one_iff lat).1 hspan
    obtain ⟨m, hm0, -, hm, hfrom, hto⟩ := exists_part hnarrow hL0 hL1.le
    rw [← bucketSpan_eq] at hm
    simp only [if_pos hspan, hm]
    rw [bucketSpan_eq] at hpos ⊢
    refine (columnsBefore_eq hpos hm0 ?_ (by linarith)).symm
    exact hfrom.imp_left fun h => by linarith
  · have hwide := not_le.1 (mt (bucketSpan_le_one_iff lat).2 hspan)
    obtain ⟨k, hk, hcases⟩ := rowUnits_wide hwide
    obtain ⟨q, hq, -, -, hfrom, hto⟩ := exists_wideLon hcases hL0 hL1
    have hspank : bucketSpan lat = k := by
      rw [bucketSpan_eq, hk]
      push_cast
      ring
    have hqk : (wideLon L (bucketSpan lat) : ℚ) = q * k := by
      rw [hspank, hq]
      push_cast
      ring
    simp only [if_neg hspan, hqk]
    refine (columnsBefore_eq hpos le_rfl (.inr rfl) ?_).symm
    rw [hspank]
    push_cast
    linarith

/-- The western edge of a cell, from the degree and the column of its bucket. -/
theorem cellWest_eq_lon_add (row column : ℤ) :
    cellWest row column
      = (ofCell row column).lon + (((ofCell row column).x : ℕ) : ℤ) * rowWidth row := by
  have hsplit : (cellEighth row column : ℚ)
      = 8 * ((cellEighth row column / 8 : ℤ) : ℚ)
        + ((cellEighth row column % 8 / rowUnits row * rowUnits row : ℤ) : ℚ) := by
    rw [cellEighth_emod]
    exact_mod_cast (Int.mul_ediv_add_emod _ 8).symm
  have hlon : (((ofCell row column).lon : ℤ) : ℚ) = ((cellEighth row column / 8 : ℤ) : ℚ) := rfl
  rw [hlon, x_ofCell]
  unfold cellWest rowWidth
  rw [hsplit]
  push_cast
  ring

/-! ## The point and its bucket -/

/-- How far a point lies east of its cell, in the terms of `Overshoots`. -/
theorem normalizeLon_sub_cellWest {lon lat : ℚ} {row column : ℤ} (hlat : -90 ≤ lat)
    (hcell : containing lon lat = ofCell row column) :
    normalizeLon lon - cellWest row column
      = pointOffset lon lat
        - columnsBefore (pointOffset lon lat) (bucketSpan lat) * rowWidth row := by
  have hlon := lon_containing lon hlat
  have hx := x_containing lon hlat
  rw [hcell] at hlon hx
  rw [cellWest_eq_lon_add, hlon, hx]
  ring

/-- A bucket holds its point unless the columns overshoot. -/
theorem near_bounds_iff_not_overshoots {lon lat : ℚ} (hlat : -90 ≤ lat) (hlat' : lat ≤ 90) :
    ((containing lon lat).bounds : Bounds ℚ).Near snapTolerance lon lat ↔ ¬ Overshoots lon lat := by
  obtain ⟨row, column, hcell, hat, hfrom, hto⟩ := exists_cell_containing lon hlat
  have htol := snapTolerance_eq
  have hw := rowWidth_le row
  have hoffset := normalizeLon_sub_cellWest hlat hcell
  have hover : Overshoots lon lat
      ↔ rowWidth row + snapTolerance < normalizeLon lon - cellWest row column := by
    unfold Overshoots
    rw [hcell, width_ofCell, hoffset]
    push_cast
    constructor <;> intro h <;> linarith
  have hlon :
      SameMeridian (cellWest row column + (normalizeLon lon - cellWest row column)) lon := by
    rw [add_sub_cancel]
    exact sameMeridian_normalizeLon lon
  rw [hover, not_lt, hcell, bounds_ofCell]
  constructor
  · rintro ⟨⟨t, ht0, ht1, ht⟩, -, -⟩
    -- both ways to the longitude start at the western edge and are shorter than a turn
    have heq := (ht.trans hlon.symm).eq_of_lt (by linarith) (by linarith)
    linarith
  · intro hle
    refine ⟨⟨_, hfrom.le, hle, hlon⟩, hat.lt_lat.le, ?_⟩
    rcases hat.lat_lt with hlt | rfl
    · linarith
    · unfold rowSouth
      push_cast
      linarith

/-- The first row of each band but the southernmost. -/
def bandRows : List ℤ :=
  [1432, 1408, 1384, 1328, 1216, 896, 544, 224, 112, 56, 32, 8]

/-- Within a band rows have one width. -/
theorem rowUnits_sub_one {row : ℤ} (h : row ∉ bandRows) : rowUnits (row - 1) = rowUnits row := by
  have hedge : ∀ first ∈ bandRows, (first ≤ row - 1 ↔ first ≤ row) := by
    intro first hfirst
    have : first ≠ row := ne_of_mem_of_not_mem hfirst h
    omega
  unfold rowUnits
  iterate 12 refine if_congr (hedge _ (by decide)) rfl ?_
  rfl

/-- The row in which buckets get narrower than those of the row below starts at an edge. -/
theorem exists_edge_of_rowUnits_lt {row : ℤ} (h : rowUnits row < rowUnits (row - 1)) :
    ∃ edge ∈ narrowingEdges, rowSouth row = edge := by
  have hrow : row ∈ bandRows := by
    by_contra hinside
    exact absurd (rowUnits_sub_one hinside) h.ne'
  have hsouth : ∀ first ∈ bandRows, rowUnits first < rowUnits (first - 1) →
      ∃ edge ∈ narrowingEdges, first = 8 * (edge + 90) := by decide
  obtain ⟨edge, hedge, rfl⟩ := hsouth row hrow h
  refine ⟨edge, hedge, ?_⟩
  unfold rowSouth
  push_cast
  ring

/-- A point that lies east of its cell was looked up in a greater width. -/
theorem rowWidth_lt_of_east {lon lat : ℚ} {row column : ℤ} (hlat : -90 ≤ lat)
    (hcell : containing lon lat = ofCell row column)
    (heast : rowWidth row ≤ normalizeLon lon - cellWest row column) :
    rowWidth row < bucketSpan lat := by
  by_contra hle
  -- with one width the offset would end before the next column does
  rw [normalizeLon_sub_cellWest hlat hcell] at heast
  have hend := lt_columnsBefore_add_one_mul (d := pointOffset lon lat) (bucketSpan_pos lat)
  have hcolumns : 0 ≤ columnsBefore (pointOffset lon lat) (bucketSpan lat) := le_max_left 0 _
  generalize columnsBefore (pointOffset lon lat) (bucketSpan lat) = m at *
  have hm : (0 : ℚ) ≤ ((m + 1 : ℤ) : ℚ) := by exact_mod_cast (show 0 ≤ m + 1 by omega)
  have hless := mul_le_mul_of_nonneg_left (not_lt.1 hle) hm
  push_cast at hend hless
  linarith

/-- A greater width than that of the cell is looked up only where a latitude is taken up into a
narrower band. -/
theorem Located.snappedToBand {lon lat : ℚ} {row column : ℤ} (hat : Located row column lon lat)
    (hnarrower : rowWidth row < bucketSpan lat) : SnappedToBand lat := by
  have hunits : rowUnits row < rowUnits (rowOf lat) := by
    rw [bucketSpan_eq] at hnarrower
    unfold rowWidth at hnarrower
    have : (rowUnits row : ℚ) < rowUnits (rowOf lat) := by linarith
    exact_mod_cast this
  have hsouth : lat < rowSouth row := by
    by_contra hle
    rcases hat.lat_lt with hlt | rfl
    · rw [rowOf_eq (not_lt.1 hle) hlt] at hunits
      exact lt_irrefl _ hunits
    · have : rowUnits 1439 = 96 := by decide
      have := rowUnits_le (rowOf lat)
      omega
  rw [rowOf_of_below hat.lt_lat hsouth] at hunits
  obtain ⟨edge, hedge, heq⟩ := exists_edge_of_rowUnits_lt hunits
  exact ⟨edge, hedge, by rw [← heq]; exact hat.lt_lat, by rw [← heq]; exact hsouth⟩

/-- Columns overshoot only where a latitude is taken up into a narrower band. -/
theorem Overshoots.snappedToBand {lon lat : ℚ} (h : Overshoots lon lat) (hlat : -90 ≤ lat) :
    SnappedToBand lat := by
  obtain ⟨row, column, hcell, hat⟩ := containing_spec lon hlat
  have htol := snapTolerance_pos
  refine hat.snappedToBand (rowWidth_lt_of_east hlat hcell ?_)
  unfold Overshoots at h
  rw [hcell, width_ofCell] at h
  push_cast at h
  rw [normalizeLon_sub_cellWest hlat hcell]
  linarith

/-! ## Which points are held -/

/-- The bucket that is found for a point holds the point, to within the snapping tolerance in
longitude and in latitude, unless the latitude is taken up into a narrower band and the columns
overshoot there. -/
theorem near_bounds_containing_iff (lon lat : ℚ) (h0 : -90 ≤ lat) (h1 : lat ≤ 90) :
    ((containing lon lat).bounds : Bounds ℚ).Near snapTolerance lon lat
      ↔ ¬ (SnappedToBand lat ∧ Overshoots lon lat) := by
  rw [near_bounds_iff_not_overshoots h0 h1]
  exact not_congr ⟨fun h => ⟨h.snappedToBand h0, h⟩, And.right⟩

/-- Five hundred-millionths of a degree south of 89 degrees south, two degrees east of Greenwich,
the latitude is taken up to the edge but the column does not overshoot. -/
theorem near_bounds_containing_below_edge :
    ((containing (2 : ℚ) (-89.00000005)).bounds : Bounds ℚ).Near snapTolerance 2 (-89.00000005) :=
  (near_bounds_containing_iff 2 (-89.00000005) (by norm_num) (by norm_num)).2 (by decide +kernel)

/-- On the same parallel eleven degrees east of Greenwich, the bucket that is found is the four
degrees from Greenwich on. -/
theorem not_near_bounds_containing_below_edge :
    -90 ≤ (-89.00000005 : ℚ) ∧ (-89.00000005 : ℚ) ≤ 90
      ∧ containing (11 : ℚ) (-89.00000005) = ⟨0, -89, 0, 0⟩
      ∧ (width ⟨0, -89, 0, 0⟩ : ℚ) = 4
      ∧ ¬ ((containing (11 : ℚ) (-89.00000005)).bounds : Bounds ℚ).Near snapTolerance 11
          (-89.00000005) := by
  refine ⟨by norm_num, by norm_num, by decide +kernel, by decide +kernel, ?_⟩
  rw [near_bounds_iff_not_overshoots (by norm_num) (by norm_num), not_not]
  decide +kernel

end Orthomosaic.Bucket
