import Orthomosaic.Proofs.Bounds.Hull
import Orthomosaic.Proofs.Lookup.PointBuckets

/-!
# Requests within one bucket

A point on the border of a bucket is found in the bucket next to it, so what lies in one bucket,
borders included, need not be found there. Rectangles and sets of points are therefore pulled in
before buckets are looked up: by more than the snapping tolerance, where they are more than twice as
wide and high. What is left of them keeps the tolerance from every border
(`Bucket.Encloses.inside_of_holds_shrunk`), so both kinds of lookup, different as they are, find the
one bucket and return its orthophoto (`TileCache.photos_within_bucket`).
-/

namespace Orthomosaic

open Scalar

/-! ## Rectangles in a bucket -/

namespace Bucket

/-- A rectangle in the closed extent of a bucket. -/
structure Encloses (b : Bucket) (r : Bounds ℚ) : Prop where
  withinArc : r.WithinArc b.west b.width
  south_le : b.south ≤ r.south
  north_le : r.north ≤ b.south + 1 / 8

variable {b : Bucket} {r : Bounds ℚ} {lon lat : ℚ}

theorem Canonical.width_le (h : b.Canonical) : (b.width : ℚ) ≤ 12 := by
  obtain ⟨row, _, -, -, -, -, -, hwidth⟩ := h.exists_cell
  rw [← hwidth]
  exact rowWidth_le row

theorem Inside.eastward_le (h : b.Inside 0 lon lat) : eastward b.west lon ≤ b.width := by
  obtain ⟨t, ht0, ht1, ht⟩ := h.from_sides
  rw [sub_zero] at ht1
  exact (eastward_le_of ht ht0).trans ht1

/-- A rectangle all points of which lie in a bucket. -/
theorem encloses_of_holds (hr : r.WellFormed) (hwidth : (b.width : ℚ) < 360)
    (h : ∀ lon lat, r.Holds lon lat → b.Inside 0 lon lat) : b.Encloses r := by
  have hspan := hr.zero_le_span
  have hlat := hr.south_le_north
  have hpoint : ∀ {t lat : ℚ}, 0 ≤ t → t ≤ r.span → r.south ≤ lat → lat ≤ r.north →
      b.Inside 0 (r.west + t) lat := by
    intro t lat ht0 ht1 hs hn
    exact h _ _ (Bounds.holds_iff.2 ⟨⟨t, ht0, ht1, .refl _⟩, hs, hn⟩)
  refine ⟨Bounds.withinArc_of_endIn_le ?_, ?_, ?_⟩
  · have hstart : r.startIn b.west ≤ b.width := by
      have hcorner := (hpoint (le_refl 0) hspan (le_refl _) hlat).eastward_le
      rw [add_zero] at hcorner
      exact hcorner
    by_contra hbeyond
    -- else the rectangle goes on for a little beyond the eastern border
    unfold Bounds.endIn at hbeyond
    obtain ⟨t, htlow, hthigh, hturn⟩ : ∃ t, b.width < r.startIn b.west + t ∧ t ≤ r.span
        ∧ r.startIn b.west + t < 360 := by
      refine ⟨min r.span ((b.width + 360) / 2 - r.startIn b.west), ?_, min_le_left _ _, ?_⟩
      · rw [← min_add_add_left]
        exact lt_min (by linarith) (by linarith)
      · linarith [min_le_right r.span ((b.width + 360) / 2 - r.startIn b.west)]
    have hstart0 := Bounds.startIn_nonneg b.west r
    have hmove := (Bounds.sameMeridian_startIn b.west r).add_right t
    rw [add_assoc] at hmove
    have heast := (hpoint (by linarith) hthigh (le_refl _) hlat).eastward_le
    rw [eastward_eq_of hmove (by linarith) hturn] at heast
    linarith
  · linarith [(hpoint (le_refl 0) hspan (le_refl _) hlat).from_south]
  · linarith [(hpoint (le_refl 0) hspan hlat (le_refl _)).from_north]

/-- A rectangle in a bucket is still there when it is pulled in. -/
theorem Encloses.shrunk (h : b.Encloses r) (hr : r.WellFormed) {margin : ℚ} (hm : 0 ≤ margin) :
    b.Encloses (r.shrunk margin) := by
  obtain ⟨start, hstart0, hstart1, hstart⟩ := h.withinArc
  obtain ⟨hsouth, hnorth⟩ := Bounds.shrunk_lat hr hm
  refine ⟨?_, h.south_le.trans hsouth, hnorth.trans h.north_le⟩
  have hlon : 0 ≤ min margin (r.span / 2) := le_min hm (by linarith [hr.zero_le_span])
  rw [Bounds.shrunk_eq hr]
  have hmove := hstart.add_right (min margin (r.span / 2))
  rw [add_assoc] at hmove
  refine ⟨start + min margin (r.span / 2), by linarith, ?_,
    hmove.trans (sameMeridian_normalizeLon _).symm⟩
  change _ + (r.span - 2 * min margin (r.span / 2)) ≤ _
  linarith

/-- What is left of a rectangle that is wide and high enough keeps the snapping tolerance from the
borders of the bucket. -/
theorem Encloses.inside_of_holds_shrunk (h : b.Encloses r) (hr : r.WellFormed)
    (hspan : 2 * snapTolerance < r.span) (hheight : 2 * snapTolerance < r.north - r.south)
    (hpoint : (r.shrunk edgeInset).Holds lon lat) : b.Inside snapTolerance lon lat := by
  have hlon : snapTolerance ≤ min edgeInset (r.span / 2) :=
    le_min BucketGrid.snapTolerance_lt_edgeInset.le (by linarith)
  have hlat : snapTolerance ≤ min edgeInset ((r.north - r.south) / 2) :=
    le_min BucketGrid.snapTolerance_lt_edgeInset.le (by linarith)
  have hsouth := h.south_le
  have hnorth := h.north_le
  obtain ⟨start, hstart0, hstart1, hstart⟩ := h.withinArc
  obtain ⟨heast, hlow, hhigh⟩ := Bounds.holds_iff.1 hpoint
  obtain ⟨t, ht0, ht1, ht⟩ := (Bounds.exists_east_shrunk_iff hr).1 heast
  rw [Bounds.shrunk_eq hr] at hlow hhigh
  dsimp only at hlow hhigh
  refine ⟨by linarith, by linarith, start + t, by linarith, by linarith, ?_⟩
  rw [← add_assoc]
  exact (hstart.add_right t).trans ht

end Bucket

/-! ## Rectangles -/

variable {b : Bucket} {r : Bounds ℚ}

/-- A rectangle in a bucket has a grid of this one. -/
theorem resolved_of_encloses (hb : b.Canonical) (h : b.Encloses r) (hr : r.WellFormed)
    (hspan : 2 * snapTolerance < r.span) (hheight : 2 * snapTolerance < r.north - r.south) :
    BucketGrid.Resolved r ⟨[b], 1, 1, b.bounds⟩ := by
  have htol := Bounds.tolerance_pos
  have hwf := BucketGrid.wellFormed_targetOf hr
  have htarget : b.Encloses (BucketGrid.targetOf r) := h.shrunk hr BucketGrid.edgeInset_pos.le
  have hwidth := hb.width_le
  have hbounds := hb.bounds_eq
  have hwf' : (b.bounds : Bounds ℚ).WellFormed := by
    obtain ⟨row, column, -, -, rfl, -, -, -⟩ := hb.exists_cell
    exact Bucket.wellFormed_bounds_ofCell row column
  have horigin : BucketGrid.originOf r = b :=
    hb.containing_eq (h.inside_of_holds_shrunk hr hspan hheight hwf.holds_corner)
  have heast : (b.bounds : Bounds ℚ).reachesEastOf (BucketGrid.targetOf r) = true := by
    have hend := htarget.withinArc.endIn_le hwf (by linarith)
    unfold Bounds.endIn Bounds.startIn at hend
    rw [Bounds.reachesEastOf_iff hwf' hwf, hbounds, Bounds.lonPosition_of_le]
    · exact hend.trans (le_add_of_nonneg_right htol.le)
    · exact (le_add_of_nonneg_right hwf.zero_le_span).trans hend
  have hnorth : (b.bounds : Bounds ℚ).reachesNorthOf (BucketGrid.targetOf r) = true := by
    rw [Bounds.reachesNorthOf_iff hwf', hbounds]
    exact htarget.north_le.trans (le_add_of_nonneg_right htol.le)
  exact
    { isEmpty_eq_false := hr.isEmpty_eq_false
      columns_pos := Nat.one_pos
      rows_pos := Nat.one_pos
      columns_le := show 1 ≤ maxGridExtent by decide
      rows_le := show 1 ≤ maxGridExtent by decide
      cells_eq := by
        rw [horigin]
        rfl
      bounds_eq := by
        unfold BucketGrid.coveredEast
        rw [horigin]
        rfl
      reaches_east := by
        unfold BucketGrid.coveredEast
        rw [horigin]
        exact heast
      not_reaches_east := fun k hk => absurd hk (Nat.not_lt_zero k)
      reaches_north := hnorth
      not_reaches_north := fun k hk => absurd hk (Nat.not_lt_zero k)
      width_le := fun k hk => absurd hk (Nat.not_lt_zero k) }

/-! ## Points -/

variable {points : List (ℚ × ℚ)}

namespace Bounds

/-- The hull of some points is the union of their rectangles. -/
theorem ofPoints_eq_union (points : List (ℚ × ℚ)) :
    ofPoints points = union (points.map fun p => point p.1 p.2) := by
  unfold ofPoints union
  rw [List.foldl_map]
  rfl

theorem startIn_point (start lon lat : ℚ) : (point lon lat).startIn start = eastward start lon :=
  eastward_eq_of ((sameMeridian_eastward start lon).trans (sameMeridian_normalizeLon lon).symm)
    (eastward_nonneg start lon) (eastward_lt start lon)

theorem endIn_point (start lon lat : ℚ) : (point lon lat).endIn start = eastward start lon := by
  unfold endIn
  rw [startIn_point]
  exact add_zero _

end Bounds

/-- The hull of points that lie in a bucket lies there too, and what two of the points are apart it
is wide and high. -/
theorem encloses_ofPoints (hwidth : (b.width : ℚ) ≤ 12) (hne : points ≠ [])
    (hin : ∀ p ∈ points, b.Inside 0 p.1 p.2) :
    (Bounds.ofPoints points).WellFormed ∧ b.Encloses (Bounds.ofPoints points)
      ∧ (∀ p ∈ points, ∀ q ∈ points, eastward b.west q.1 - eastward b.west p.1
        ≤ (Bounds.ofPoints points).span)
      ∧ ∀ p ∈ points, ∀ q ∈ points, q.2 - p.2
        ≤ (Bounds.ofPoints points).north - (Bounds.ofPoints points).south := by
  have hlength : (b.width : ℚ) < 180 - Bounds.tolerance := by
    rw [Bounds.tolerance_eq]
    linarith
  have hboxes : ∀ r ∈ points.map (fun p => Bounds.point p.1 p.2),
      r.WellFormed ∧ r.WithinArc b.west b.width := by
    intro r hr
    obtain ⟨p, hp, rfl⟩ := List.mem_map.1 hr
    refine ⟨Bounds.wellFormed_point p.1 p.2, Bounds.withinArc_of_endIn_le ?_⟩
    rw [Bounds.endIn_point]
    exact (hin p hp).eastward_le
  obtain ⟨hhull, hwf, hend⟩ :=
    Bounds.isHull_union hlength (List.map_eq_nil_iff.not.2 hne) hboxes
  rw [← Bounds.ofPoints_eq_union] at hhull hwf hend
  have hmem : ∀ p ∈ points,
      Bounds.point p.1 p.2 ∈ {r | r ∈ points.map fun p => Bounds.point p.1 p.2} :=
    fun p hp => List.mem_map.2 ⟨p, hp, rfl⟩
  refine ⟨hwf, ⟨Bounds.withinArc_of_endIn_le hend, ?_, ?_⟩, fun p hp q hq => ?_,
    fun p hp q hq => ?_⟩
  · obtain ⟨r, hr, hsouth⟩ := hhull.isLeast_south.1
    obtain ⟨p, hp, rfl⟩ := List.mem_map.1 hr
    have hlat := (hin p hp).from_south
    rw [add_zero] at hlat
    exact hlat.trans_eq hsouth
  · obtain ⟨r, hr, hnorth⟩ := hhull.isGreatest_north.1
    obtain ⟨p, hp, rfl⟩ := List.mem_map.1 hr
    have hlat := (hin p hp).from_north
    rw [sub_zero] at hlat
    exact hnorth.symm.trans_le hlat
  · have hlow := hhull.isLeast_start.2 (Set.mem_image_of_mem _ (hmem p hp))
    have hhigh := hhull.isGreatest_end.2 (Set.mem_image_of_mem _ (hmem q hq))
    rw [Bounds.startIn_point] at hlow
    rw [Bounds.endIn_point] at hhigh
    unfold Bounds.endIn at hhigh
    linarith
  · have hlow : _ ≤ p.2 := hhull.isLeast_south.2 (Set.mem_image_of_mem _ (hmem p hp))
    have hhigh : q.2 ≤ _ := hhull.isGreatest_north.2 (Set.mem_image_of_mem _ (hmem q hq))
    linarith

/-- A list of one element, however often it occurs, has one element without repetitions. -/
theorem eraseDupsBy_eq_singleton {α : Type} {same : α → α → Bool} {a : α} {l : List α}
    (ha : same a a = true) (hne : l ≠ []) (hl : ∀ x ∈ l, x = a) : l.eraseDupsBy same = [a] := by
  cases l with
  | nil => exact absurd rfl hne
  | cons x rest =>
    obtain ⟨rfl, hrest⟩ := List.forall_mem_cons.1 hl
    have hnone : rest.filter (fun y => decide (same y x = false)) = [] := by
      rw [List.filter_eq_nil_iff]
      intro y hy
      rw [hrest y hy, ha]
      decide
    rw [List.eraseDupsBy_cons, hnone, List.eraseDupsBy_nil]

/-- Points whose rectangle, pulled in, is looked up in one bucket throughout are held by this one. -/
theorem pointBuckets?_eq (hne : points ≠ []) (hwf : (Bounds.ofPoints points).WellFormed)
    (hfound : ∀ lon lat, ((Bounds.ofPoints points).shrunk edgeInset).Holds lon lat →
      Bucket.containing lon lat = b) : pointBuckets? points = some [b] := by
  have htarget := hwf.shrunk BucketGrid.edgeInset_pos.le
  rw [pointBuckets?_eq_some]
  refine congrArg some (eraseDupsBy_eq_singleton (beq_self_eq_true _) ?_ fun x hx => ?_)
  · simpa using hne
  · obtain ⟨p, -, rfl⟩ := List.mem_map.1 hx
    exact hfound _ _ (Bounds.clamp?_spec htarget p.1 p.2).2

/-! ## Orthophotos -/

namespace TileCache

variable {look : Path → Candidate} {cache : TileCache}

/-- The orthophotos of a list of one bucket. -/
theorem bucketPhotos_singleton (look : Path → Candidate) (cache : TileCache) (b : Bucket) :
    bucketPhotos (α := ℚ) look cache [b]
      = ((bucketPhoto look cache b).1.toList, (bucketPhoto (α := ℚ) look cache b).2) := by
  unfold bucketPhotos bucketPhoto getImages
  rcases getImage look cache b with ⟨_ | image, cache'⟩ <;> rfl

/-- What a rectangle shows whose grid is one bucket. -/
theorem areaPhoto_of_singleton (look : Path → Candidate) (cache : TileCache)
    (h : BucketGrid.resolve r = .ok (some ⟨[b], 1, 1, b.bounds⟩)) :
    areaPhoto look cache r
      = (.ok (bucketPhoto look cache b).1, (bucketPhoto (α := ℚ) look cache b).2) := by
  unfold areaPhoto
  rw [h]

/-- What points show that one bucket holds. -/
theorem pointsPhoto_of_singleton (look : Path → Candidate) (cache : TileCache)
    (hwf : (Bounds.ofPoints points).WellFormed) (h : pointBuckets? points = some [b]) :
    pointsPhoto look cache points
      = (.ok (bucketPhoto look cache b).1, (bucketPhoto (α := ℚ) look cache b).2) := by
  unfold pointsPhoto
  rw [hwf.isEmpty_eq_false, if_neg Bool.false_ne_true, h]
  dsimp only
  rw [bucketPhotos_singleton]
  cases (bucketPhoto (α := ℚ) look cache b).1 <;> rfl

/-- A rectangle or some points in the closed extent of a canonical bucket, more than twice the
snapping tolerance wide and high, have the orthophoto of this bucket: its image as the cache returns
it, with the rectangle of the bucket, or none if it has no image. Whatever the cache holds, a lookup
leaves it as that of the bucket does. Edges and points may lie on the borders. -/
theorem photos_within_bucket (hb : b.Canonical) (look : Path → Candidate) (cache : TileCache) :
    (∀ r : Bounds ℚ, r.WellFormed → (∀ lon lat, r.Holds lon lat → b.Inside 0 lon lat) →
        2 * snapTolerance < r.span → 2 * snapTolerance < r.north - r.south →
        areaPhoto look cache r
          = (.ok (bucketPhoto look cache b).1, (bucketPhoto (α := ℚ) look cache b).2))
      ∧ (∀ points : List (ℚ × ℚ), (∀ p ∈ points, b.Inside 0 p.1 p.2) →
        (∃ p ∈ points, ∃ q ∈ points,
          2 * snapTolerance < eastward b.west q.1 - eastward b.west p.1) →
        (∃ p ∈ points, ∃ q ∈ points, 2 * snapTolerance < q.2 - p.2) →
        pointsPhoto look cache points
          = (.ok (bucketPhoto look cache b).1, (bucketPhoto (α := ℚ) look cache b).2))
      ∧ bucketPhoto (α := ℚ) look cache b
        = ((getImage look cache b).1.map (Orthophoto.mk · b.bounds), (getImage look cache b).2) := by
  have hwidth := hb.width_le
  refine ⟨fun r hr hin hspan hheight => ?_, fun points hin hspan hheight => ?_, rfl⟩
  · have hencl := Bucket.encloses_of_holds hr (by linarith) hin
    exact areaPhoto_of_singleton look cache
      (resolved_of_encloses hb hencl hr hspan hheight).resolve_eq
  · obtain ⟨p, hp, q, hq, hpq⟩ := hspan
    obtain ⟨p', hp', q', hq', hpq'⟩ := hheight
    have hne := List.ne_nil_of_mem hp
    obtain ⟨hwf, hencl, hwide, hhigh⟩ := encloses_ofPoints hwidth hne hin
    have hspan := hpq.trans_le (hwide p hp q hq)
    have hheight := hpq'.trans_le (hhigh p' hp' q' hq')
    refine pointsPhoto_of_singleton look cache hwf
      (pointBuckets?_eq hne hwf fun lon lat hpoint => ?_)
    exact hb.containing_eq (hencl.inside_of_holds_shrunk hwf hspan hheight hpoint)

/-- The bucket that ends at the antimeridian in the row at the north pole, under a root where every
file is a tile. The rectangle is all of the bucket, and the points are three of its corners: two on
the antimeridian, which is spelled in both ways, and one of these at the pole. -/
theorem photos_within_bucket_at_pole :
    (⟨168, 89, 0, 7⟩ : Bucket).Canonical
      ∧ (∀ p ∈ ([(180, 719 / 8), (168, 719 / 8), (-180, 90)] : List (ℚ × ℚ)),
        (⟨168, 89, 0, 7⟩ : Bucket).Inside 0 p.1 p.2)
      ∧ ∃ photo cache,
        areaPhoto (fun _ => .tile (.zero 1 1 .gray8)) ((empty .standard).addRoot ⟨"scenery"⟩).2
            (⟨168, 12, 719 / 8, 90⟩ : Bounds ℚ) = (.ok (some photo), cache)
          ∧ pointsPhoto (fun _ => .tile (.zero 1 1 .gray8))
            ((empty .standard).addRoot ⟨"scenery"⟩).2
            ([(180, 719 / 8), (168, 719 / 8), (-180, 90)] : List (ℚ × ℚ))
              = (.ok (some photo), cache)
          ∧ photo.image = ⟨.zero 1 1 .gray8, some 1⟩
          ∧ photo.bounds = ⟨168, 12, 719 / 8, 90⟩ := by
  have hb : (⟨168, 89, 0, 7⟩ : Bucket).Canonical := by decide +kernel
  have hwidth : ((⟨168, 89, 0, 7⟩ : Bucket).width : ℚ) = 12 := by decide +kernel
  have hwest : (⟨168, 89, 0, 7⟩ : Bucket).west = 168 := by decide +kernel
  have hsouth : (⟨168, 89, 0, 7⟩ : Bucket).south = 719 / 8 := by decide +kernel
  have hin : ∀ {t lon lat : ℚ}, 0 ≤ t → t ≤ 12 → SameMeridian (168 + t) lon → 719 / 8 ≤ lat →
      lat ≤ 90 → (⟨168, 89, 0, 7⟩ : Bucket).Inside 0 lon lat := by
    intro t lon lat ht0 ht1 ht h0 h1
    refine ⟨?_, ?_, t, ht0, ?_, ?_⟩
    · rw [hsouth]
      linarith
    · rw [hsouth]
      linarith
    · rw [hwidth]
      linarith
    · rw [hwest]
      exact ht
  have hcorners : ∀ p ∈ ([(180, 719 / 8), (168, 719 / 8), (-180, 90)] : List (ℚ × ℚ)),
      (⟨168, 89, 0, 7⟩ : Bucket).Inside 0 p.1 p.2 := by
    simp only [List.forall_mem_cons]
    refine ⟨hin (t := 12) ?_ ?_ ⟨0, ?_⟩ ?_ ?_, hin (t := 0) ?_ ?_ ⟨0, ?_⟩ ?_ ?_,
      hin (t := 12) ?_ ?_ ⟨-1, ?_⟩ ?_ ?_, List.forall_mem_nil _⟩ <;> norm_num
  obtain ⟨harea, hpoints, hphoto⟩ := photos_within_bucket hb (fun _ => .tile (.zero 1 1 .gray8))
    ((empty .standard).addRoot ⟨"scenery"⟩).2
  have hrect := harea ⟨168, 12, 719 / 8, 90⟩ (by decide +kernel)
    (fun lon lat hpoint => by
      obtain ⟨⟨t, ht0, ht1, ht⟩, hlow, hhigh⟩ := hpoint
      dsimp only at ht0 ht1 ht hlow hhigh
      exact hin (by linarith) (by linarith) ht (by linarith) (by linarith))
    (by decide +kernel) (by decide +kernel)
  have hthree := hpoints _ hcorners
    ⟨(168, 719 / 8), by simp, (180, 719 / 8), by simp, by decide +kernel⟩
    ⟨(168, 719 / 8), by simp, (-180, 90), by simp, by decide +kernel⟩
  rw [hphoto] at hrect hthree
  refine ⟨hb, hcorners, _, _, hrect, hthree, rfl, ?_⟩
  change ((⟨168, 89, 0, 7⟩ : Bucket).bounds : Bounds ℚ) = _
  rw [hb.bounds_eq, hwest, hwidth, hsouth]
  norm_num

end TileCache

end Orthomosaic
