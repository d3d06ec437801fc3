import Orthomosaic.Proofs.Bounds.Hull
import Orthomosaic.Proofs.Mosaic.Crop

/-!
# The order of a collage

The first photo of a collage sets the density and the format, the union is made photo by photo, and what is
painted later covers what was painted before. For tiles of buckets of one width, of one size and format, none
of this shows. Every photo has the same density; within an arc of less than half a turn the union is a hull;
and in exact arithmetic different buckets are painted over different blocks of whole pixels. So a collage of
them does not depend on their order (`Orthophoto.compose_perm`).
-/

namespace Orthomosaic

open Scalar Bucket BucketGrid

/-! ## Hulls of sets -/

namespace Bounds

variable {start length : ℚ} {boxes others : List (Bounds ℚ)}

/-- Within an arc of less than half a turn the union of a list depends on nothing but which rectangles are
in it. -/
theorem union_congr (hlength : length < 180 - tolerance)
    (hboxes : ∀ b ∈ boxes, b.WellFormed ∧ b.WithinArc start length)
    (hsame : ∀ b, b ∈ others ↔ b ∈ boxes) : union others = union boxes := by
  by_cases hne : boxes = []
  · subst hne
    rw [List.eq_nil_iff_forall_not_mem.2 fun b => (hsame b).not.2 List.not_mem_nil]
  · have hne' : others ≠ [] := by
      intro hnone
      subst hnone
      exact hne (List.eq_nil_iff_forall_not_mem.2 fun b hb => List.not_mem_nil ((hsame b).2 hb))
    obtain ⟨hhull, hwf, -⟩ := isHull_union hlength hne hboxes
    obtain ⟨hhull', hwf', -⟩ := isHull_union hlength hne' fun b hb => hboxes b ((hsame b).1 hb)
    rw [show {b | b ∈ others} = {b | b ∈ boxes} from Set.ext hsame] at hhull'
    exact hhull'.unique hhull hwf' hwf

end Bounds

/-! ## Tiles in one density -/

/-- From one cell of a row to another it is a whole number of widths. -/
theorem exists_eastward_cellWest (row column column' : ℤ) :
    ∃ c : ℕ, eastward (cellWest row column) (cellWest row column') = c * rowWidth row := by
  have hn := le_rowColumns row
  have hc0 := Int.emod_nonneg (column' - column) (show rowColumns row ≠ 0 by omega)
  have hc1 := Int.emod_lt_of_pos (column' - column) (show 0 < rowColumns row by omega)
  have hcell : cellWest row column' = cellWest row (column + (column' - column) % rowColumns row) := by
    unfold cellWest cellEighth
    rw [Int.add_emod_emod, add_sub_cancel]
  refine ⟨((column' - column) % rowColumns row).toNat, ?_⟩
  rw [hcell, eastward_cellWest hc0 hc1]
  congr 1
  exact_mod_cast (Int.toNat_of_nonneg hc0).symm

/-- A photo of a cell of the rows like a given one, by a tile of a given size and format. -/
structure CellPhoto (row : ℤ) (width height : ℕ) (format : PixelFormat) (p : Orthophoto ℚ) : Prop where
  exists_cell : ∃ row' column, rowUnits row' = rowUnits row ∧ p.bounds = (ofCell row' column).bounds
  width_eq : p.width = width
  height_eq : p.height = height
  format_eq : p.image.raster.format = format

namespace CellPhoto

variable {row : ℤ} {width height : ℕ} {format : PixelFormat} {p q : Orthophoto ℚ} {frame : Bounds ℚ}

theorem wellFormed (h : CellPhoto row width height format p) : p.bounds.WellFormed := by
  obtain ⟨row', column, -, hbounds⟩ := h.exists_cell
  rw [hbounds]
  exact wellFormed_bounds_ofCell row' column

/-- All such photos have one density. -/
theorem density_eq (h : CellPhoto row width height format p) :
    p.density = blockDensity row width height := by
  obtain ⟨row', column, hunits, hbounds⟩ := h.exists_cell
  obtain ⟨image, bounds⟩ := p
  obtain rfl : bounds = (ofCell row' column).bounds := hbounds
  rw [BucketGrid.density_photo, show image.raster.width = width from h.width_eq,
    show image.raster.height = height from h.height_eq]
  unfold blockDensity
  rw [rowWidth_congr hunits]

theorem bounds_eq (h : CellPhoto row width height format p) :
    p.bounds = ⟨p.bounds.west, rowWidth row, p.bounds.south, p.bounds.south + 1 / 8⟩ := by
  obtain ⟨row', column, hunits, hbounds⟩ := h.exists_cell
  rw [hbounds, bounds_ofCell, rowSouth_succ, rowWidth_congr hunits]

theorem sized (h : CellPhoto row width height format p) (hw : 0 < width) (hh : 0 < height) : p.Sized := by
  refine ⟨h.wellFormed, ?_, ?_, h.width_eq ▸ hw, h.height_eq ▸ hh⟩ <;> rw [h.bounds_eq]
  · exact (show (0 : ℚ) < 1 / 8 by norm_num).trans_le (le_rowWidth row)
  · exact lt_add_of_pos_right _ (by norm_num)

/-- Such a photo lies whole widths east and whole heights north of the corner of a frame that is the western
edge of such a photo and the southern edge of one. -/
theorem exists_offset (h : CellPhoto row width height format p) (hframe : frame.Frames p.bounds)
    (hwest : ∃ column, frame.west = cellWest row column) (hsouth : ∃ row', frame.south = rowSouth row') :
    ∃ c r : ℕ, eastward frame.west p.bounds.west = c * rowWidth row
      ∧ p.bounds.south - frame.south = (r : ℚ) / 8 := by
  obtain ⟨row', column, hunits, hbounds⟩ := h.exists_cell
  obtain ⟨column', hwest⟩ := hwest
  obtain ⟨row'', hsouth⟩ := hsouth
  have hlat := hframe.south_le
  rw [hsouth, hbounds, bounds_ofCell] at hlat
  have hrows : row'' ≤ row' := by
    unfold rowSouth at hlat
    have : (row'' : ℚ) ≤ row' := by linarith
    exact_mod_cast this
  obtain ⟨c, hc⟩ := exists_eastward_cellWest row column' column
  refine ⟨c, (row' - row'').toNat, ?_, ?_⟩
  · rw [hbounds, (west_span_bounds hunits column).1, hwest, hc]
  · have hcast : (((row' - row'').toNat : ℕ) : ℚ) = ((row' - row'' : ℤ) : ℚ) := by
      exact_mod_cast Int.toNat_of_nonneg (sub_nonneg.2 hrows)
    rw [hcast, hbounds, bounds_ofCell, hsouth]
    unfold rowSouth
    push_cast
    ring

/-- The extent of such a photo is known by how far its corner lies from that of a frame. -/
theorem bounds_eq_of_offset (h : CellPhoto row width height format p)
    (h' : CellPhoto row width height format q)
    (heast : eastward frame.west p.bounds.west = eastward frame.west q.bounds.west)
    (hnorth : p.bounds.south - frame.south = q.bounds.south - frame.south) : p.bounds = q.bounds := by
  have hwest : p.bounds.west = q.bounds.west :=
    Bounds.west_eq_of_startIn_eq h.wellFormed h'.wellFormed heast
  rw [h.bounds_eq, h'.bounds_eq, hwest, sub_left_injective hnorth]

/-- A density is not negative. -/
theorem blockDensity_nonneg (row : ℤ) (width height : ℕ) :
    0 ≤ (blockDensity row width height).perLon ∧ 0 ≤ (blockDensity row width height).perLat := by
  have hw := le_rowWidth row
  unfold blockDensity
  constructor <;> positivity

theorem floor_natCast_add_half (n : ℕ) : ⌊(n : ℚ) + 1 / 2⌋ = n := by
  rw [Int.floor_eq_iff]
  constructor <;> push_cast <;> linarith

/-- Along one axis, a block of whole pixels on a canvas that can be made. -/
theorem pixels_eq_natCast {offset extent side : ℚ} {start count : ℕ} (hoffset : offset = start)
    (hextent : extent = count) (hcount : 0 < count) (hfirst : offset ≤ side) (hlength : extent ≤ side)
    (hcanvas : pixelExtent side ≤ maxCanvasSide) :
    pixelOffset offset = start ∧ max (pixelExtent extent) 1 = count := by
  have hoffset0 : 0 ≤ offset := hoffset ▸ Nat.cast_nonneg start
  have hextent0 : 0 ≤ extent := hextent ▸ Nat.cast_nonneg count
  obtain ⟨hplace, hsize, -⟩ := pixels_eq_floor hoffset0 hextent0 hfirst hlength hcanvas
  rw [hoffset, floor_natCast_add_half] at hplace
  rw [hextent, floor_natCast_add_half] at hsize
  rw [hoffset, hextent]
  omega

/-- The tile of such a photo is painted as it is, over a block of whole pixels. -/
theorem exists_paint_eq (h : CellPhoto row width height format p) (hframe : frame.Frames p.bounds)
    (hwest : ∃ column, frame.west = cellWest row column) (hsouth : ∃ row', frame.south = rowSouth row')
    (hw : 0 < width) (hh : 0 < height)
    (hwide : pixelExtent (frame.width * (blockDensity row width height).perLon) ≤ maxCanvasSide)
    (hhigh : pixelExtent (frame.height * (blockDensity row width height).perLat) ≤ maxCanvasSide) :
    ∃ c r : ℕ, eastward frame.west p.bounds.west = c * rowWidth row
      ∧ p.bounds.south - frame.south = (r : ℚ) / 8
      ∧ ∀ canvas : Raster, Orthophoto.paint (blockDensity row width height) frame canvas p
        = canvas.blit p.image.raster (c * width : ℕ) (canvas.height - (r * height : ℕ) - height) := by
  obtain ⟨c, r, heast, hnorth⟩ := h.exists_offset hframe hwest hsouth
  refine ⟨c, r, heast, hnorth, fun canvas => ?_⟩
  have hempty := hframe.wellFormed.isEmpty_eq_false
  have hwidth : frame.width = frame.span := by simp [Bounds.width, hempty]
  have hheight : frame.height = frame.north - frame.south := by simp [Bounds.height, hempty]
  rw [hwidth] at hwide
  rw [hheight] at hhigh
  have hspan : p.bounds.span = (1 : ℕ) * rowWidth row := by rw [h.bounds_eq, Nat.cast_one, one_mul]
  have hlat : p.bounds.north - p.bounds.south = ((1 : ℕ) : ℚ) / 8 := by
    rw [h.bounds_eq, Nat.cast_one, add_sub_cancel_left]
  obtain ⟨hleft, hcolumns⟩ := pixels_eq_natCast
    (show eastward frame.west p.bounds.west * (blockDensity row width height).perLon = (c * width : ℕ) by
      rw [heast, mul_rowWidth_mul_perLon])
    (show p.bounds.span * (blockDensity row width height).perLon = (1 * width : ℕ) by
      rw [hspan, mul_rowWidth_mul_perLon])
    (by omega) (mul_le_mul_of_nonneg_right hframe.eastward_le (blockDensity_nonneg row width height).1)
    (mul_le_mul_of_nonneg_right hframe.span_le (blockDensity_nonneg row width height).1) hwide
  obtain ⟨hbottom, hrows⟩ := pixels_eq_natCast
    (show (p.bounds.south - frame.south) * (blockDensity row width height).perLat = (r * height : ℕ) by
      rw [hnorth, div_eight_mul_perLat])
    (show (p.bounds.north - p.bounds.south) * (blockDensity row width height).perLat
        = (1 * height : ℕ) by rw [hlat, div_eight_mul_perLat])
    (by omega)
    (mul_le_mul_of_nonneg_right (by linarith [hframe.le_north, (h.sized hw hh).south_lt])
      (blockDensity_nonneg row width height).2)
    (mul_le_mul_of_nonneg_right (by linarith [hframe.le_north, hframe.south_le])
      (blockDensity_nonneg row width height).2) hhigh
  obtain ⟨hfootprint, hplacement⟩ := (h.sized hw hh).footprint_placement
    (d := blockDensity row width height) hframe canvas.height
  rw [hcolumns, hrows, one_mul, one_mul] at hfootprint
  rw [hleft, hbottom, hfootprint] at hplacement
  have hscale : p.image.raster.scale width height = p.image.raster := if_pos ⟨h.width_eq, h.height_eq⟩
  unfold Orthophoto.paint
  rw [hfootprint, hplacement]
  dsimp only
  rw [hscale]

/-- Two such photos of different buckets are painted in either order: their blocks do not overlap. -/
theorem paint_comm (h : CellPhoto row width height format p) (h' : CellPhoto row width height format q)
    (hframe : frame.Frames p.bounds) (hframe' : frame.Frames q.bounds)
    (hwest : ∃ column, frame.west = cellWest row column) (hsouth : ∃ row', frame.south = rowSouth row')
    (hw : 0 < width) (hh : 0 < height)
    (hwide : pixelExtent (frame.width * (blockDensity row width height).perLon) ≤ maxCanvasSide)
    (hhigh : pixelExtent (frame.height * (blockDensity row width height).perLat) ≤ maxCanvasSide)
    (hne : p.bounds ≠ q.bounds) (canvas : Raster) :
    Orthophoto.paint (blockDensity row width height) frame
        (Orthophoto.paint (blockDensity row width height) frame canvas p) q
      = Orthophoto.paint (blockDensity row width height) frame
        (Orthophoto.paint (blockDensity row width height) frame canvas q) p := by
  obtain ⟨c, r, heast, hnorth, hpaint⟩ := h.exists_paint_eq hframe hwest hsouth hw hh hwide hhigh
  obtain ⟨c', r', heast', hnorth', hpaint'⟩ :=
    h'.exists_paint_eq hframe' hwest hsouth hw hh hwide hhigh
  have hplaces : c ≠ c' ∨ r ≠ r' := by
    by_contra hsame
    rw [not_or, not_not, not_not] at hsame
    obtain ⟨rfl, rfl⟩ := hsame
    exact hne (h.bounds_eq_of_offset h' (heast.trans heast'.symm) (hnorth.trans hnorth'.symm))
  have hstep : ∀ {k k' : ℕ} (side : ℕ), k < k' → k * side + side ≤ k' * side := fun side hlt => by
    rw [← Nat.succ_mul]
    exact Nat.mul_le_mul_right side hlt
  rw [hpaint, hpaint', hpaint', hpaint]
  refine Raster.blit_comm ?_ canvas
  have hpw : p.image.raster.width = width := h.width_eq
  have hqw : q.image.raster.width = width := h'.width_eq
  have hph : p.image.raster.height = height := h.height_eq
  have hqh : q.image.raster.height = height := h'.height_eq
  have hkeeps : (canvas.blit p.image.raster (c * width : ℕ)
      (canvas.height - (r * height : ℕ) - height)).height = canvas.height := rfl
  unfold Raster.Apart
  rw [hpw, hqw, hph, hqh, hkeeps]
  rcases hplaces with hcolumns | hrows
  · rcases lt_or_gt_of_ne hcolumns with hlt | hlt
    · have := hstep width hlt
      omega
    · have := hstep width hlt
      omega
  · rcases lt_or_gt_of_ne hrows with hlt | hlt
    · have := hstep height hlt
      omega
    · have := hstep height hlt
      omega

end CellPhoto

/-! ## Collages of tiles -/

namespace Orthophoto

variable {row : ℤ} {width height : ℕ} {format : PixelFormat} {start length : ℚ}
  {photos photos' : List (Orthophoto ℚ)}

/-- The extents of such photos, as unions of them need these. -/
theorem wellFormed_withinArc (hcells : ∀ p ∈ photos, CellPhoto row width height format p)
    (harc : ∀ p ∈ photos, p.bounds.WithinArc start length) :
    ∀ b ∈ photos.map (·.bounds), b.WellFormed ∧ b.WithinArc start length := by
  intro b hb
  obtain ⟨p, hp, rfl⟩ := List.mem_map.1 hb
  exact ⟨(hcells p hp).wellFormed, harc p hp⟩

/-- The south-western corner of the union of photos of buckets of one width is made of edges of buckets. -/
theorem exists_corner_union (hlength : length < 180 - Bounds.tolerance) (hne : photos ≠ [])
    (hcells : ∀ p ∈ photos, CellPhoto row width height format p)
    (harc : ∀ p ∈ photos, p.bounds.WithinArc start length) :
    (∃ column, (Bounds.union (photos.map (·.bounds))).west = cellWest row column)
      ∧ ∃ row', (Bounds.union (photos.map (·.bounds))).south = rowSouth row' := by
  obtain ⟨hhull, -, -⟩ :=
    Bounds.isHull_union hlength (by simpa using hne) (wellFormed_withinArc hcells harc)
  constructor
  · obtain ⟨b, hb, hwest⟩ := hhull.west_mem
    obtain ⟨p, hp, rfl⟩ := List.mem_map.1 hb
    obtain ⟨row', column, hunits, hbounds⟩ := (hcells p hp).exists_cell
    refine ⟨column, hwest.symm.trans ?_⟩
    rw [hbounds]
    exact (west_span_bounds hunits column).1
  · obtain ⟨b, hb, hsouth⟩ := hhull.isLeast_south.1
    obtain ⟨p, hp, rfl⟩ := List.mem_map.1 hb
    obtain ⟨row', column, -, hbounds⟩ := (hcells p hp).exists_cell
    refine ⟨row', hsouth.symm.trans ?_⟩
    rw [hbounds, bounds_ofCell]

/-- A canvas of some pixels shows photos of some pixels. -/
theorem tile_pos_of_blank {frame : Bounds ℚ} {canvas : Raster}
    (h : Raster.blank (pixelExtent (frame.width * (blockDensity row width height).perLon))
      (pixelExtent (frame.height * (blockDensity row width height).perLat)) format = .ok canvas) :
    0 < width ∧ 0 < height := by
  have hzero : ∀ x : ℚ, pixelExtent (x * 0) = 0 := by
    intro x
    rw [mul_zero, ← Nat.cast_zero, pixelExtent_natCast, Nat.zero_min]
  unfold Raster.blank at h
  split_ifs at h with hnone
  rw [not_or] at hnone
  constructor
  · refine Nat.pos_of_ne_zero fun hw => hnone.1 ?_
    subst hw
    simpa [blockDensity] using hzero frame.width
  · refine Nat.pos_of_ne_zero fun hh => hnone.2 ?_
    subst hh
    simpa [blockDensity] using hzero frame.height

/-- On a canvas that can be made, such photos of different buckets are painted in any order. -/
theorem foldl_paint_perm {frame : Bounds ℚ} {canvas : Raster} (hperm : photos.Perm photos')
    (hcells : ∀ p ∈ photos, CellPhoto row width height format p)
    (hframe : ∀ p ∈ photos, frame.Frames p.bounds)
    (hwest : ∃ column, frame.west = cellWest row column) (hsouth : ∃ row', frame.south = rowSouth row')
    (hdistinct : ∀ p ∈ photos, ∀ q ∈ photos, p.bounds = q.bounds → p = q)
    (hblank : Raster.blank (pixelExtent (frame.width * (blockDensity row width height).perLon))
      (pixelExtent (frame.height * (blockDensity row width height).perLat)) format = .ok canvas) :
    photos.foldl (paint (blockDensity row width height) frame) canvas
      = photos'.foldl (paint (blockDensity row width height) frame) canvas := by
  obtain ⟨-, hwide, hhigh⟩ := blank_eq_ok hblank
  obtain ⟨hw, hh⟩ := tile_pos_of_blank hblank
  refine hperm.foldl_eq' (fun p hp q hq z => ?_) canvas
  by_cases hsame : p.bounds = q.bounds
  · rw [hdistinct p hp q hq hsame]
  · exact (hcells p hp).paint_comm (hcells q hq) (hframe p hp) (hframe q hq) hwest hsouth hw hh hwide hhigh
      hsame z

/-- What is done with a canvas matters only if there is one. -/
theorem map_congr_of_eq_ok {α : Type} {canvas? : Except CanvasError Raster} {f g : Raster → α}
    (h : ∀ canvas, canvas? = .ok canvas → f canvas = g canvas) : canvas?.map f = canvas?.map g := by
  cases canvas? with
  | error e => rfl
  | ok canvas => exact congrArg Except.ok (h canvas rfl)

/-- A list of less than two entries has one order. -/
theorem eq_of_perm_of_length_lt {α : Type} {l l' : List α} (hperm : l.Perm l') (hlength : l.length < 2) :
    l = l' := by
  match l with
  | [] => exact (List.nil_perm.1 hperm).symm
  | [a] => exact (List.perm_singleton.1 hperm.symm).symm

/-- A collage of tiles of one size and format, of different buckets of one width that lie in an arc of less
than half a turn, is the same in every order. -/
theorem compose_perm (hperm : photos.Perm photos') (hlength : length < 180 - Bounds.tolerance)
    (hcells : ∀ p ∈ photos, CellPhoto row width height format p)
    (harc : ∀ p ∈ photos, p.bounds.WithinArc start length)
    (hdistinct : ∀ p ∈ photos, ∀ q ∈ photos, p.bounds = q.bounds → p = q) :
    compose photos = compose photos' := by
  rcases lt_or_ge photos.length 2 with hfew | hmany
  · rw [eq_of_perm_of_length_lt hperm hfew]
  have hmany' : 2 ≤ photos'.length := hperm.length_eq ▸ hmany
  have hne : photos ≠ [] := List.ne_nil_of_length_pos (by omega)
  have hne' : photos' ≠ [] := List.ne_nil_of_length_pos (by omega)
  obtain ⟨second, rest, hphotos⟩ := exists_eq_of_head? hmany (List.head?_eq_some_head hne)
  obtain ⟨second', rest', hphotos'⟩ := exists_eq_of_head? hmany' (List.head?_eq_some_head hne')
  have hboxes := wellFormed_withinArc hcells harc
  have hunion := Bounds.union_congr hlength hboxes fun b => (hperm.map (·.bounds)).symm.mem_iff
  have hfirst := hcells _ (List.head_mem hne)
  have hfirst' := hcells _ (hperm.mem_iff.2 (List.head_mem hne'))
  obtain ⟨hwest, hsouth⟩ := exists_corner_union hlength hne hcells harc
  have hframe : ∀ x ∈ photos, (Bounds.union (photos.map (·.bounds))).Frames x.bounds := fun x hx =>
    Bounds.frames_union (fun b hb => (hboxes b hb).1) (List.mem_map_of_mem hx)
  rw [compose_eq_map hphotos, compose_eq_map hphotos', hfirst.density_eq, hfirst'.density_eq,
    hfirst.format_eq, hfirst'.format_eq, hunion]
  generalize Bounds.union (photos.map (·.bounds)) = frame at hwest hsouth hframe ⊢
  refine map_congr_of_eq_ok fun canvas hblank => ?_
  rw [foldl_paint_perm hperm hcells hframe hwest hsouth hdistinct hblank]

end Orthophoto

end Orthomosaic
