import Orthomosaic.Proofs.Bounds.Nearest
import Orthomosaic.Proofs.Lookup.OneBucket
import Orthomosaic.Proofs.Mosaic.CollageOrder

/-!
# The order of points

A request takes points as a list: the rectangle around them is made point by point, and their buckets come in
the order in which the points lead to them. If the points lie in an arc of less than half a turn
(`WithinHalf`), that rectangle is a hull, so every point is looked up in one place and the buckets are the
same ones in some order (`WithinHalf.perm_pointBuckets?`); and a collage of their tiles shows no order.

It is the arc of the points that matters, not that of their buckets. Where every point is found in a bucket
that it lies in, the one follows from the other: an arc of less than half a turn of buckets of one width is
shorter than half a turn by a good part of a bucket (`Bucket.Beside.span_union_le`), which is more than
points are moved by. Where a point is found in a bucket that it does not lie in, the order may show
(`TileCache.pointsPhoto_order_shows`).
-/

namespace Orthomosaic

open Scalar

variable {points points' : List (ℚ × ℚ)} {buckets : List Bucket} {start length : ℚ}

/-! ## Points in half a turn -/

/-- Some points lie in an arc of less than half a turn. -/
def WithinHalf (points : List (ℚ × ℚ)) : Prop :=
  ∃ start length, length < 180 - Bounds.tolerance ∧ ∀ p ∈ points, Bounds.OnArc start length p.1

namespace WithinHalf

/-- The rectangle around such points does not depend on their order and on repetitions. -/
theorem ofPoints_congr (h : WithinHalf points) (hset : ∀ p, p ∈ points' ↔ p ∈ points) :
    Bounds.ofPoints points' = Bounds.ofPoints points := by
  obtain ⟨start, length, hlength, harc⟩ := h
  have hboxes : ∀ b ∈ points.map (fun p => Bounds.point p.1 p.2),
      b.WellFormed ∧ b.WithinArc start length := by
    intro b hb
    obtain ⟨p, hp, rfl⟩ := List.mem_map.1 hb
    obtain ⟨t, ht0, ht1, ht⟩ := harc p hp
    refine ⟨Bounds.wellFormed_point p.1 p.2, t, ht0, ?_, ht.trans (sameMeridian_normalizeLon p.1).symm⟩
    change t + 0 ≤ length
    rwa [add_zero]
  rw [Bounds.ofPoints_eq_union, Bounds.ofPoints_eq_union]
  refine Bounds.union_congr hlength hboxes fun b => ?_
  simp only [List.mem_map, hset]

/-- Such points have the same buckets in every order. -/
theorem perm_pointBuckets? (h : WithinHalf points) (hset : ∀ p, p ∈ points' ↔ p ∈ points)
    (hbuckets : pointBuckets? points = some buckets) :
    ∃ buckets', pointBuckets? points' = some buckets' ∧ buckets.Perm buckets' := by
  have hbuckets' := pointBuckets?_eq_some points'
  obtain ⟨hmem, hnodup⟩ := mem_pointBuckets? hbuckets
  obtain ⟨hmem', hnodup'⟩ := mem_pointBuckets? hbuckets'
  refine ⟨_, hbuckets', (List.perm_ext_iff_of_nodup hnodup hnodup').2 fun b => ?_⟩
  have hplaces : lookupBucket points' = lookupBucket points := by
    unfold lookupBucket lookupPoint lookupTarget
    rw [h.ofPoints_congr hset]
  rw [hmem, hmem', hplaces]
  exact exists_congr fun p => and_congr_left fun _ => (hset p).symm

end WithinHalf

/-! ## Buckets in half a turn -/

/-- A number of whole widths that is less than half a turn falls short of it by half a width. -/
theorem mul_rowWidth_le {row : ℤ} {n : ℕ} (h : n * rowWidth row < 180) :
    n * rowWidth row ≤ 180 - rowWidth row / 2 := by
  have hturn := rowColumns_mul_rowWidth row
  have hpos : 0 < rowWidth row := by linarith [le_rowWidth row]
  have hcount : (2 * n + 1 : ℤ) ≤ rowColumns row := by
    by_contra hmany
    rw [not_le, Int.lt_add_one_iff] at hmany
    have hmany' : (rowColumns row : ℚ) ≤ 2 * n := by exact_mod_cast hmany
    have := mul_le_mul_of_nonneg_right hmany' hpos.le
    linarith
  have hcount' : (2 * n + 1 : ℚ) ≤ rowColumns row := by exact_mod_cast hcount
  have := mul_le_mul_of_nonneg_right hcount' hpos.le
  linarith

/-- A longitude that is moved into the rectangle around the points is moved by no more than this is pulled
in. -/
theorem exists_shift_lookupPoint {p : ℚ × ℚ} (hp : p ∈ points) :
    ∃ d, |d| ≤ edgeInset ∧ SameMeridian (p.1 + d) (lookupPoint points p).1 :=
  Bounds.exists_shift_clampLon_shrunk (wellFormed_ofPoints (List.ne_nil_of_mem hp))
    BucketGrid.edgeInset_pos.le (holds_ofPoints hp).eastward_le_span

/-- What is moved to where it is near a part of a rectangle lies near the rectangle. -/
theorem Bounds.Frames.onArc_of_near {frame b : Bounds ℚ} {ε margin lon lon' lat d : ℚ}
    (h : frame.Frames b) (hgap : frame.span < 360) (hnear : b.Near ε lon' lat) (hd : |d| ≤ margin)
    (hmoved : SameMeridian (lon + d) lon') :
    OnArc (frame.west - (ε + margin)) (frame.span + 2 * (ε + margin)) lon := by
  have hstart := eastward_nonneg frame.west b.west
  have hend := h.ends hgap
  obtain ⟨hlow, hhigh⟩ := abs_le.1 hd
  obtain ⟨t, ht0, ht1, j, hj⟩ := hnear.exists_east
  obtain ⟨k, hk⟩ := sameMeridian_eastward frame.west b.west
  obtain ⟨l, hl⟩ := hmoved
  exact ⟨eastward frame.west b.west + t - d + (ε + margin), by linarith, by linarith,
    j + k - l, by push_cast; linarith⟩

/-- Some buckets of one width, in an arc of less than half a turn. -/
structure Bucket.Beside (buckets : List Bucket) (row : ℤ) (start length : ℚ) : Prop where
  length_lt : length < 180 - Bounds.tolerance
  exists_cell : ∀ b ∈ buckets, ∃ row' column, rowUnits row' = rowUnits row ∧ b = Bucket.ofCell row' column
  withinArc : ∀ b ∈ buckets, (b.bounds : Bounds ℚ).WithinArc start length

namespace Bucket.Beside

variable {row : ℤ}

/-- The buckets of a request are such buckets if they have one width and lie in such an arc. -/
theorem exists_of_pointBuckets? {width : ℚ} (hbuckets : pointBuckets? points = some buckets)
    (hwidth : ∀ b ∈ buckets, (b.width : ℚ) = width) (hlength : length < 180 - Bounds.tolerance)
    (harc : ∀ b ∈ buckets, (b.bounds : Bounds ℚ).WithinArc start length) :
    ∃ row, Beside buckets row start length := by
  have hcell : ∀ b ∈ buckets, ∃ row column, b = Bucket.ofCell row column ∧ rowWidth row = width := by
    intro b hb
    obtain ⟨row, column, -, -, hcell, -, -, hrow⟩ := (canonical_of_pointBuckets? hbuckets b hb).exists_cell
    exact ⟨row, column, hcell, hrow.trans (hwidth b hb)⟩
  cases buckets with
  | nil => exact ⟨0, hlength, fun b hb => absurd hb List.not_mem_nil, harc⟩
  | cons first rest =>
    obtain ⟨row, -, -, hrow⟩ := hcell first List.mem_cons_self
    refine ⟨row, hlength, fun b hb => ?_, harc⟩
    obtain ⟨row', column, hb, hrow'⟩ := hcell b hb
    exact ⟨row', column, rowWidth_eq_iff.1 (hrow'.trans hrow.symm), hb⟩

/-- The extents of such buckets, as unions of them need these. -/
theorem wellFormed_withinArc (h : Beside buckets row start length) :
    ∀ r ∈ buckets.map (fun b => (b.bounds : Bounds ℚ)), r.WellFormed ∧ r.WithinArc start length := by
  intro r hr
  obtain ⟨b, hb, rfl⟩ := List.mem_map.1 hr
  refine ⟨?_, h.withinArc b hb⟩
  obtain ⟨row', column, -, rfl⟩ := h.exists_cell b hb
  exact Bucket.wellFormed_bounds_ofCell row' column

/-- The union of such buckets falls short of half a turn by half a width or more: half a turn is so many half
widths, and the union is a number of whole ones. -/
theorem span_union_le (h : Beside buckets row start length) (hne : buckets ≠ []) :
    (Bounds.union (buckets.map fun b => (b.bounds : Bounds ℚ))).span ≤ 180 - 1 / 16 := by
  have htol := Bounds.tolerance_pos
  have hlength := h.length_lt
  obtain ⟨hhull, -, hend⟩ := Bounds.isHull_union hlength (by simpa using hne) h.wellFormed_withinArc
  have hstart0 := Bounds.startIn_nonneg start (Bounds.union (buckets.map fun b => (b.bounds : Bounds ℚ)))
  have hcell : ∀ r ∈ buckets.map (fun b => (b.bounds : Bounds ℚ)),
      ∃ column, r.west = cellWest row column ∧ r.span = rowWidth row := by
    intro r hr
    obtain ⟨b, hb, rfl⟩ := List.mem_map.1 hr
    obtain ⟨row', column, hunits, rfl⟩ := h.exists_cell b hb
    exact ⟨column, BucketGrid.west_span_bounds hunits column⟩
  generalize Bounds.union (buckets.map fun b => (b.bounds : Bounds ℚ)) = hull at hhull hend hstart0 ⊢
  -- the union goes from the western edge of one bucket to the eastern edge of another
  obtain ⟨first, hfirst, hwest⟩ := hhull.west_mem
  obtain ⟨last, hlast, heast⟩ := hhull.isGreatest_end.1
  have hstart : first.startIn start = hull.startIn start := congrArg (eastward start) hwest
  have hbefore : first.startIn start ≤ last.startIn start :=
    hstart.trans_le (hhull.isLeast_start.2 (Set.mem_image_of_mem _ hlast))
  have hway := Bounds.eastward_of_startIn_le hbefore
  obtain ⟨column, hcolumn, -⟩ := hcell first hfirst
  obtain ⟨column', hcolumn', hspan⟩ := hcell last hlast
  obtain ⟨c, hc⟩ := exists_eastward_cellWest row column column'
  rw [hcolumn, hcolumn', hc] at hway
  unfold Bounds.endIn at heast hend
  have hcount : hull.span = (c + 1 : ℕ) * rowWidth row := by
    push_cast
    linarith
  have hlt : (c + 1 : ℕ) * rowWidth row < 180 := by linarith
  have hshort := mul_rowWidth_le hlt
  have hwidth := le_rowWidth row
  linarith

/-- Points that are found in such buckets, and lie in them up to the snapping tolerance, lie themselves in an
arc of less than half a turn: it is longer than the union of the buckets by what points are moved by. -/
theorem withinHalf (h : Beside buckets row start length) (hbuckets : pointBuckets? points = some buckets)
    (hnear : ∀ p ∈ points, ((lookupBucket points p).bounds : Bounds ℚ).Near snapTolerance
      (lookupPoint points p).1 (lookupPoint points p).2) : WithinHalf points := by
  have htol := Bounds.tolerance_eq
  by_cases hnone : points = []
  · subst hnone
    exact ⟨0, 0, by rw [htol]; norm_num, fun p hp => absurd hp List.not_mem_nil⟩
  have hmem : ∀ p ∈ points, lookupBucket points p ∈ buckets :=
    fun p hp => ((mem_pointBuckets? hbuckets).1 _).2 ⟨p, hp, rfl⟩
  have hne : buckets ≠ [] := by
    obtain ⟨p, hp⟩ := List.exists_mem_of_ne_nil points hnone
    exact List.ne_nil_of_mem (hmem p hp)
  have hspan := h.span_union_le hne
  have hframes : ∀ b ∈ buckets,
      (Bounds.union (buckets.map fun b => (b.bounds : Bounds ℚ))).Frames b.bounds := fun b hb =>
    Bounds.frames_union (fun r hr => (h.wellFormed_withinArc r hr).1) (List.mem_map.2 ⟨b, hb, rfl⟩)
  generalize Bounds.union (buckets.map fun b => (b.bounds : Bounds ℚ)) = hull at hspan hframes
  have hmargin : 2 * (snapTolerance + edgeInset : ℚ) < 1 / 16 - Bounds.tolerance := by
    unfold edgeInset
    rw [snapTolerance_eq, htol, literal_eq]
    norm_num
  refine ⟨hull.west - (snapTolerance + edgeInset), hull.span + 2 * (snapTolerance + edgeInset),
    by linarith, fun p hp => ?_⟩
  obtain ⟨d, hd, hmoved⟩ := exists_shift_lookupPoint hp
  exact (hframes _ (hmem p hp)).onArc_of_near (by linarith) (hnear p hp) hd hmoved

end Bucket.Beside

/-! ## What photos show -/

namespace Orthophoto

/-- A photo without the number of the load that its image comes from: its pixels and its ground. -/
def shown (p : Orthophoto ℚ) : Orthophoto ℚ :=
  ⟨⟨p.image.raster, none⟩, p.bounds⟩

/-- What a collage shows depends on what its photos show. -/
theorem compose_map_shown (photos : List (Orthophoto ℚ)) :
    compose (photos.map shown) = (compose photos).map (Option.map shown) := by
  match photos with
  | [] => rfl
  | [p] => rfl
  | first :: second :: rest =>
    have hbounds : ((first :: second :: rest).map shown).map (·.bounds)
        = (first :: second :: rest).map (·.bounds) := List.map_map
    have hpaint : ∀ d frame canvas, ((first :: second :: rest).map shown).foldl (paint d frame) canvas
        = (first :: second :: rest).foldl (paint d frame) canvas := fun _ _ _ => List.foldl_map
    have hdensity : first.shown.density = first.density := rfl
    have hformat : first.shown.image.raster.format = first.image.raster.format := rfl
    have hlist : (first :: second :: rest).map shown = first.shown :: second.shown :: rest.map shown := rfl
    rw [compose_eq_map hlist, compose_eq_map rfl, hbounds, hdensity, hformat]
    simp only [hpaint]
    generalize Raster.blank _ _ _ = canvas
    cases canvas with
    | error e => rfl
    | ok canvas => simp only [Except.map, Option.map_some, shown]

end Orthophoto

/-- The photo of a bucket that a search of the files under some roots finds. -/
def searchedPhoto (look : Path → Candidate) (layout : TileLayout) (roots : List Path) (b : Bucket) :
    Option (Orthophoto ℚ) :=
  (searchedTile look layout roots b).map fun raster => ⟨⟨raster, none⟩, b.bounds⟩

theorem Bucket.Canonical.obtained {b : Bucket} (h : b.Canonical) : b.Obtained :=
  .ofIndex h.numberable.ofIndex?_index

namespace TileCache

variable {look : Path → Candidate} {settings : CacheSettings} {roots : List Path} {cache cache' : TileCache}

/-- The photos of some buckets, from that of the first one on. -/
theorem fst_bucketPhotos_cons (look : Path → Candidate) (cache : TileCache) (b : Bucket)
    (rest : List Bucket) :
    (bucketPhotos (α := ℚ) look cache (b :: rest)).1
      = ((getImage look cache b).1.map (Orthophoto.mk · b.bounds)).toList
        ++ (bucketPhotos look (getImage look cache b).2 rest).1 := by
  unfold bucketPhotos
  rw [getImages]
  rcases getImage look cache b with ⟨_ | image, cache'⟩ <;> rfl

/-- The photos of buckets show what a search finds for each of them. -/
theorem Sound.map_shown_bucketPhotos (h : Sound look settings roots cache)
    (hbuckets : ∀ b ∈ buckets, b.Obtained) :
    (bucketPhotos look cache buckets).1.map Orthophoto.shown
      = buckets.filterMap (searchedPhoto look settings.layout roots) := by
  induction buckets generalizing cache with
  | nil => rfl
  | cons b rest ih =>
    obtain ⟨hb, hrest⟩ := List.forall_mem_cons.1 hbuckets
    obtain ⟨hfound, hsound⟩ := h.getImage hb
    have hhead : searchedPhoto look settings.layout roots b
        = ((cache.getImage look b).1.map (Orthophoto.mk · b.bounds)).map Orthophoto.shown := by
      unfold searchedPhoto
      rw [← hfound, Option.map_map, Option.map_map]
      rfl
    rw [fst_bucketPhotos_cons, List.map_append, ih hsound hrest, List.filterMap_cons, hhead]
    cases (cache.getImage look b).1 <;> rfl

/-- What points show is the collage of what a search finds for their buckets. -/
theorem Sound.shown_pointsPhoto (h : Sound look settings roots cache)
    (hbuckets : pointBuckets? points = some buckets) :
    (pointsPhoto look cache points).1.map (Option.map Orthophoto.shown)
      = (Orthophoto.compose (buckets.filterMap (searchedPhoto look settings.layout roots))).mapError
        .canvas := by
  obtain ⟨hmem, -⟩ := mem_pointBuckets? hbuckets
  have hobtained : ∀ b ∈ buckets, b.Obtained :=
    fun b hb => (canonical_of_pointBuckets? hbuckets b hb).obtained
  rw [← h.map_shown_bucketPhotos hobtained, Orthophoto.compose_map_shown]
  unfold pointsPhoto
  split_ifs with hempty
  · -- there are no points, so there are no buckets
    have hnone : points = [] := by
      by_contra hne
      exact absurd hempty (Bool.eq_false_iff.1 (wellFormed_ofPoints hne).isEmpty_eq_false)
    subst hnone
    obtain rfl : buckets = [] := List.eq_nil_iff_forall_not_mem.2 fun b hb => by simpa using (hmem b).1 hb
    rfl
  · rw [hbuckets]
    dsimp only
    rcases Orthophoto.compose (bucketPhotos look cache buckets).1 with e | photo <;> rfl

/-- A photo that is found for one of some buckets side by side. -/
theorem cellPhoto_of_searchedPhoto {row : ℤ} {tileWidth tileHeight : ℕ} {format : PixelFormat}
    {layout : TileLayout} (h : Bucket.Beside buckets row start length)
    (htiles : ∀ b ∈ buckets, ∀ raster, searchedTile look layout roots b = some raster →
      raster.width = tileWidth ∧ raster.height = tileHeight ∧ raster.format = format)
    {b : Bucket} (hb : b ∈ buckets) {p : Orthophoto ℚ} (hp : searchedPhoto look layout roots b = some p) :
    p.bounds = b.bounds ∧ CellPhoto row tileWidth tileHeight format p := by
  unfold searchedPhoto at hp
  obtain ⟨raster, hraster, rfl⟩ := Option.map_eq_some_iff.1 hp
  obtain ⟨hwidth, hheight, hformat⟩ := htiles b hb raster hraster
  obtain ⟨row', column, hunits, hcell⟩ := h.exists_cell b hb
  exact ⟨rfl, ⟨row', column, hunits, congrArg Bucket.bounds hcell⟩, hwidth, hheight, hformat⟩

/-- The collage of what is found for canonical buckets side by side, in tiles of one size and format, is the
same in every order of the buckets. -/
theorem compose_searchedPhotos_perm {row : ℤ} {tileWidth tileHeight : ℕ} {format : PixelFormat}
    {layout : TileLayout} {buckets' : List Bucket} (h : Bucket.Beside buckets row start length)
    (hcanonical : ∀ b ∈ buckets, b.Canonical)
    (htiles : ∀ b ∈ buckets, ∀ raster, searchedTile look layout roots b = some raster →
      raster.width = tileWidth ∧ raster.height = tileHeight ∧ raster.format = format)
    (hperm : buckets.Perm buckets') :
    Orthophoto.compose (buckets.filterMap (searchedPhoto look layout roots))
      = Orthophoto.compose (buckets'.filterMap (searchedPhoto look layout roots)) := by
  have hphoto : ∀ p ∈ buckets.filterMap (searchedPhoto look layout roots),
      ∃ b ∈ buckets, searchedPhoto look layout roots b = some p
        ∧ p.bounds = b.bounds ∧ CellPhoto row tileWidth tileHeight format p := by
    intro p hp
    obtain ⟨b, hb, hfound⟩ := List.mem_filterMap.1 hp
    exact ⟨b, hb, hfound, cellPhoto_of_searchedPhoto h htiles hb hfound⟩
  have hcells : ∀ p ∈ buckets.filterMap (searchedPhoto look layout roots),
      CellPhoto row tileWidth tileHeight format p := by
    intro p hp
    obtain ⟨b, -, -, -, hcell⟩ := hphoto p hp
    exact hcell
  have harc : ∀ p ∈ buckets.filterMap (searchedPhoto look layout roots),
      p.bounds.WithinArc start length := by
    intro p hp
    obtain ⟨b, hb, -, hbounds, -⟩ := hphoto p hp
    exact hbounds ▸ h.withinArc b hb
  refine Orthophoto.compose_perm (hperm.filterMap _) h.length_lt hcells harc fun p hp q hq hsame => ?_
  obtain ⟨b, hb, hfound, hbounds, -⟩ := hphoto p hp
  obtain ⟨b', hb', hfound', hbounds', -⟩ := hphoto q hq
  obtain rfl := (hcanonical b hb).eq_of_bounds_eq (hcanonical b' hb')
    (hbounds.symm.trans (hsame.trans hbounds'))
  exact Option.some.inj (hfound.symm.trans hfound')

/-- Points whose buckets have one width and lie in an arc of less than half a turn, with tiles of one size and
format. If the points themselves lie in such an arc, what is shown for them does not depend on their order or
on repetitions: the same pixels and the same ground, or none, or the same error, whatever the cache has kept.
And they do lie in one if each of them lies in the bucket that is found for it, up to the snapping
tolerance. -/
theorem pointsPhoto_order_irrelevant {width : ℚ} {tileWidth tileHeight : ℕ} {format : PixelFormat}
    (hsound : Sound look settings roots cache) (hsound' : Sound look settings roots cache')
    (hset : ∀ p, p ∈ points' ↔ p ∈ points) (hbuckets : pointBuckets? points = some buckets)
    (hwidth : ∀ b ∈ buckets, (b.width : ℚ) = width) (hlength : length < 180 - Bounds.tolerance)
    (harc : ∀ b ∈ buckets, (b.bounds : Bounds ℚ).WithinArc start length)
    (htiles : ∀ b ∈ buckets, ∀ raster, searchedTile look settings.layout roots b = some raster →
      raster.width = tileWidth ∧ raster.height = tileHeight ∧ raster.format = format) :
    (WithinHalf points → (pointsPhoto look cache' points').1.map (Option.map Orthophoto.shown)
        = (pointsPhoto look cache points).1.map (Option.map Orthophoto.shown))
      ∧ ((∀ p ∈ points, ((lookupBucket points p).bounds : Bounds ℚ).Near snapTolerance
          (lookupPoint points p).1 (lookupPoint points p).2) → WithinHalf points) := by
  obtain ⟨row, hbeside⟩ := Bucket.Beside.exists_of_pointBuckets? hbuckets hwidth hlength harc
  refine ⟨fun hhalf => ?_, hbeside.withinHalf hbuckets⟩
  obtain ⟨buckets', hbuckets', hperm⟩ := hhalf.perm_pointBuckets? hset hbuckets
  rw [hsound.shown_pointsPhoto hbuckets, hsound'.shown_pointsPhoto hbuckets']
  rw [compose_searchedPhotos_perm hbeside (canonical_of_pointBuckets? hbuckets) htiles hperm]

/-- Two points across the antimeridian from each other, the first of them given twice. -/
def pointsAcrossSeam : List (ℚ × ℚ) :=
  [(179.9, 10.3), (-179.9, 10.4), (179.9, 10.3)]

/-- The two points the other way round and without the repetition, looked up in a cache that has kept one of
the tiles already. -/
theorem pointsPhoto_order_irrelevant_across_seam :
    pointBuckets? pointsAcrossSeam = some [⟨179, 10, 7, 2⟩, ⟨-180, 10, 0, 3⟩]
      ∧ WithinHalf pointsAcrossSeam
      ∧ (pointsPhoto (fun _ => .tile (.zero 2 1 .gray8))
            (((empty .standard).addRoot ⟨"scenery"⟩).2.getImage (fun _ => .tile (.zero 2 1 .gray8))
              ⟨-180, 10, 0, 3⟩).2
            ([(-179.9, 10.4), (179.9, 10.3)] : List (ℚ × ℚ))).1.map (Option.map Orthophoto.shown)
        = (pointsPhoto (fun _ => .tile (.zero 2 1 .gray8)) ((empty .standard).addRoot ⟨"scenery"⟩).2
            pointsAcrossSeam).1.map (Option.map Orthophoto.shown) := by
  have hbuckets : pointBuckets? pointsAcrossSeam
      = some [⟨179, 10, 7, 2⟩, ⟨-180, 10, 0, 3⟩] := by decide +kernel
  have hset : ∀ p : ℚ × ℚ, p ∈ [((-179.9 : ℚ), (10.4 : ℚ)), (179.9, 10.3)] ↔ p ∈ pointsAcrossSeam := by
    intro p
    simp only [pointsAcrossSeam, List.mem_cons, List.not_mem_nil, or_false]
    tauto
  have hwidth : ∀ b ∈ ([⟨179, 10, 7, 2⟩, ⟨-180, 10, 0, 3⟩] : List Bucket),
      (b.width : ℚ) = 1 / 8 := by decide +kernel
  have harc : ∀ b ∈ ([⟨179, 10, 7, 2⟩, ⟨-180, 10, 0, 3⟩] : List Bucket),
      (b.bounds : Bounds ℚ).WithinArc 179 2 := by
    have hends : ∀ b ∈ ([⟨179, 10, 7, 2⟩, ⟨-180, 10, 0, 3⟩] : List Bucket),
        (b.bounds : Bounds ℚ).endIn 179 ≤ 2 := by decide +kernel
    exact fun b hb => Bounds.withinArc_of_endIn_le (hends b hb)
  have hsound : Sound (fun _ => .tile (.zero 2 1 .gray8)) .standard [⟨"scenery"⟩]
      ((empty .standard).addRoot ⟨"scenery"⟩).2 := sound_of_held_nil rfl rfl rfl
  have hkept := (hsound.getImage
    (canonical_of_pointBuckets? hbuckets ⟨-180, 10, 0, 3⟩ (by simp)).obtained).2
  have htiles : ∀ b ∈ ([⟨179, 10, 7, 2⟩, ⟨-180, 10, 0, 3⟩] : List Bucket), ∀ raster,
      searchedTile (fun _ => .tile (.zero 2 1 .gray8)) .standard [⟨"scenery"⟩] b = some raster →
        raster.width = 2 ∧ raster.height = 1 ∧ raster.format = .gray8 := by
    rintro b - raster hraster
    obtain rfl : Raster.zero 2 1 .gray8 = raster := Option.some.inj hraster
    exact ⟨rfl, rfl, rfl⟩
  have hnear : ∀ p ∈ pointsAcrossSeam, ((lookupBucket pointsAcrossSeam p).bounds : Bounds ℚ).Near
      snapTolerance (lookupPoint pointsAcrossSeam p).1 (lookupPoint pointsAcrossSeam p).2 := by
    have hinside : ∀ p ∈ pointsAcrossSeam,
        ((lookupBucket pointsAcrossSeam p).bounds : Bounds ℚ).WellFormed
          ∧ ((lookupBucket pointsAcrossSeam p).bounds : Bounds ℚ).contains
            (lookupPoint pointsAcrossSeam p).1 (lookupPoint pointsAcrossSeam p).2 = true := by
      decide +kernel
    intro p hp
    refine ((Bounds.contains_iff_near (hinside p hp).1).1 (hinside p hp).2).mono ?_
    rw [Bounds.tolerance_eq, snapTolerance_eq]
    norm_num
  obtain ⟨hsame, hhalf⟩ := pointsPhoto_order_irrelevant hsound hkept hset hbuckets hwidth
    (by decide +kernel) harc htiles
  exact ⟨hbuckets, hhalf hnear, hsame (hhalf hnear)⟩

/-- Three points, of which one is a hair south of the parallel of 89 degrees south. -/
def pointsBelowEdge : List (ℚ × ℚ) :=
  [(16, -88.95), (-168.00002, -89.00000578), (8.1, -88.95)]

/-- The point below the edge is taken up into the row from there on, but not into the bucket there that it lies
in: it is found eight degrees further west. So the buckets lie within 176 degrees, and so they do for the
points in the reverse order; but every arc that holds the three points is longer than half a turn. The two
orders take two different arcs for the rectangle around the points, whose edges are pulled in at different
points, and another bucket is shown for one of them. -/
theorem pointsPhoto_order_shows :
    (∀ p, p ∈ pointsBelowEdge.reverse ↔ p ∈ pointsBelowEdge)
      ∧ (∀ p ∈ pointsBelowEdge, -90 ≤ p.2 ∧ p.2 ≤ 90)
      ∧ pointBuckets? pointsBelowEdge = some [⟨16, -89, 0, 0⟩, ⟨-180, -89, 0, 0⟩, ⟨8, -89, 0, 0⟩]
      ∧ pointBuckets? pointsBelowEdge.reverse
        = some [⟨8, -89, 0, 0⟩, ⟨-180, -89, 0, 0⟩, ⟨12, -89, 0, 0⟩]
      ∧ (∀ b ∈ ([⟨16, -89, 0, 0⟩, ⟨-180, -89, 0, 0⟩, ⟨8, -89, 0, 0⟩, ⟨12, -89, 0, 0⟩] : List Bucket),
        (b.width : ℚ) = 4 ∧ (b.bounds : Bounds ℚ).WithinArc 8 176)
      ∧ (176 : ℚ) < 180 - Bounds.tolerance
      ∧ (pointsPhoto (fun _ => .tile (.tabulate 4 1 .gray8 (fun _ _ => [17]) fun _ _ => rfl))
            ((empty .standard).addRoot ⟨"scenery"⟩).2 pointsBelowEdge.reverse).1.map
              (Option.map Orthophoto.shown)
        ≠ (pointsPhoto (fun _ => .tile (.tabulate 4 1 .gray8 (fun _ _ => [17]) fun _ _ => rfl))
            ((empty .standard).addRoot ⟨"scenery"⟩).2 pointsBelowEdge).1.map
              (Option.map Orthophoto.shown) := by
  refine ⟨fun p => List.mem_reverse, by decide +kernel, by decide +kernel, by decide +kernel, ?_,
    by decide +kernel, fun hsame => ?_⟩
  · have hends : ∀ b ∈ ([⟨16, -89, 0, 0⟩, ⟨-180, -89, 0, 0⟩, ⟨8, -89, 0, 0⟩, ⟨12, -89, 0, 0⟩] : List Bucket),
        (b.width : ℚ) = 4 ∧ (b.bounds : Bounds ℚ).endIn 8 ≤ 176 := by decide +kernel
    exact fun b hb => ⟨(hends b hb).1, Bounds.withinArc_of_endIn_le (hends b hb).2⟩
  · -- the fifth pixel is blank or not
    have hpixel := congrArg (fun answer => answer.toOption.join.bind fun p => p.image.raster.pixel? 4 0) hsame
    revert hpixel
    decide +kernel

end TileCache

end Orthomosaic
