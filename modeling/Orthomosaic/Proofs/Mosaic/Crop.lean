import Orthomosaic.Proofs.Bounds.Growth
import Orthomosaic.Proofs.Bounds.Narrowest
import Orthomosaic.Proofs.Mosaic.Collage

/-!
# What a collage crops

A collage rounds three numbers of pixels for each photo and axis: the side of the canvas, the side of the
photo and the place of its corner. Where the photo ends within the union before rounding, it ends at most
one pixel beyond the canvas after it (`pixels_le`).

North and south this is all there is. East and west the places are measured from the western edge of the
union, and a union that closes the ring may have that edge amid a photo. What then lies beyond the seam is
not brought round to the other side; it is cropped (`Orthophoto.compose_crops_at_seam`).
-/

namespace Orthomosaic

open Scalar

/-! ## Rounding to pixels -/

/-- A number that is not negative is rounded by the floor of what is half a unit above it. -/
theorem nearest_of_nonneg {q : ℚ} (low high : ℤ) (hq : 0 ≤ q) :
    nearest low high q = max low (min high ⌊q + 1 / 2⌋) := by
  have hround : Rational.nearestInt q = ⌊q + 1 / 2⌋ := if_pos hq
  change max low (min high (Rational.nearestInt q)) = _
  rw [hround]

/-- An extent in pixels, rounded. -/
theorem pixelExtent_of_nonneg {q : ℚ} (hq : 0 ≤ q) :
    (pixelExtent q : ℤ) = min (Word.unsigned32 : ℤ) ⌊q + 1 / 2⌋ := by
  have hfloor : 0 ≤ ⌊q + 1 / 2⌋ := Int.floor_nonneg.2 (by linarith)
  unfold pixelExtent
  split_ifs with hpos
  · rw [nearest_of_nonneg _ _ hq]
    omega
  · have hzero : q = 0 := by
      by_contra hne
      exact hpos ⟨rfl, by rw [literal_eq]; exact_mod_cast lt_of_le_of_ne hq (Ne.symm hne)⟩
    subst hzero
    norm_num

/-- An offset in pixels, rounded. -/
theorem pixelOffset_of_nonneg {q : ℚ} (hq : 0 ≤ q) :
    pixelOffset q = min Word.greatest64 ⌊q + 1 / 2⌋ := by
  have hfloor : 0 ≤ ⌊q + 1 / 2⌋ := Int.floor_nonneg.2 (by linarith)
  unfold pixelOffset
  rw [nearest_of_nonneg _ _ hq]
  unfold Word.least64 Word.greatest64
  omega

variable {offset extent side : ℚ}

/-- On an axis whose canvas can be made, nothing is held within a word: what is measured on the canvas is
rounded and nothing else. -/
theorem pixels_eq_floor (hoffset : 0 ≤ offset) (hextent : 0 ≤ extent) (hfirst : offset ≤ side)
    (hlength : extent ≤ side) (hcanvas : pixelExtent side ≤ maxCanvasSide) :
    pixelOffset offset = ⌊offset + 1 / 2⌋ ∧ (pixelExtent extent : ℤ) = ⌊extent + 1 / 2⌋
      ∧ (pixelExtent side : ℤ) = ⌊side + 1 / 2⌋ := by
  have hside := pixelExtent_of_nonneg (hoffset.trans hfirst)
  have hoffset' : ⌊offset + 1 / 2⌋ ≤ ⌊side + 1 / 2⌋ := Int.floor_le_floor (by linarith)
  have hextent' : ⌊extent + 1 / 2⌋ ≤ ⌊side + 1 / 2⌋ := Int.floor_le_floor (by linarith)
  rw [pixelOffset_of_nonneg hoffset, pixelExtent_of_nonneg hextent]
  unfold maxCanvasSide at hcanvas
  unfold Word.unsigned32 at hside ⊢
  unfold Word.greatest64
  omega

/-- What is rounded ends beyond the canvas by as much as it does before rounding, give or take less than
one and a half pixels. -/
theorem pixels_near (hoffset : 0 ≤ offset) (hextent : 0 ≤ extent) (hfirst : offset ≤ side)
    (hlength : extent ≤ side) (hcanvas : pixelExtent side ≤ maxCanvasSide) :
    offset + extent - side - 3 / 2
        < ((pixelOffset offset + (max (pixelExtent extent) 1 : ℕ) - pixelExtent side : ℤ) : ℚ)
      ∧ ((pixelOffset offset + (max (pixelExtent extent) 1 : ℕ) - pixelExtent side : ℤ) : ℚ)
        < max (offset + extent - side) 0 + 3 / 2 := by
  obtain ⟨hoffset', hextent', hside'⟩ := pixels_eq_floor hoffset hextent hfirst hlength hcanvas
  have hstart : ⌊offset + 1 / 2⌋ ≤ ⌊side + 1 / 2⌋ := Int.floor_le_floor (by linarith)
  have hside := Int.lt_floor_add_one (side + 1 / 2)
  have hside'' := Int.floor_le (side + 1 / 2)
  constructor
  · have hend : ⌊offset + 1 / 2⌋ + ⌊extent + 1 / 2⌋ - ⌊side + 1 / 2⌋
        ≤ pixelOffset offset + (max (pixelExtent extent) 1 : ℕ) - pixelExtent side := by omega
    refine lt_of_lt_of_le ?_ (Int.cast_le.2 hend)
    have h1 := Int.lt_floor_add_one (offset + 1 / 2)
    have h2 := Int.lt_floor_add_one (extent + 1 / 2)
    push_cast
    linarith
  · rcases Nat.eq_zero_or_pos (pixelExtent extent) with hnone | hsome
    · -- what is rounded to nothing is still painted one pixel wide
      have hend : pixelOffset offset + (max (pixelExtent extent) 1 : ℕ) - pixelExtent side ≤ 1 := by
        omega
      have hend' : ((pixelOffset offset + (max (pixelExtent extent) 1 : ℕ) - pixelExtent side : ℤ) : ℚ)
          ≤ 1 := by exact_mod_cast hend
      linarith [le_max_right (offset + extent - side) 0]
    · have hend : pixelOffset offset + (max (pixelExtent extent) 1 : ℕ) - pixelExtent side
          = ⌊offset + 1 / 2⌋ + ⌊extent + 1 / 2⌋ - ⌊side + 1 / 2⌋ := by omega
      rw [hend]
      have h1 := Int.floor_le (offset + 1 / 2)
      have h2 := Int.floor_le (extent + 1 / 2)
      push_cast
      linarith [le_max_left (offset + extent - side) 0]

/-- What ends no more than half a pixel beyond the canvas before rounding ends at most one beyond it. -/
theorem pixels_le (hoffset : 0 ≤ offset) (hextent : 0 ≤ extent) (hfirst : offset ≤ side)
    (hlength : extent ≤ side) (hcanvas : pixelExtent side ≤ maxCanvasSide)
    (hend : offset + extent ≤ side + 1 / 2) :
    pixelOffset offset + (max (pixelExtent extent) 1 : ℕ) ≤ (pixelExtent side : ℤ) + 1 := by
  obtain ⟨-, hupper⟩ := pixels_near hoffset hextent hfirst hlength hcanvas
  have hover : max (offset + extent - side) 0 ≤ 1 / 2 := max_le (by linarith) (by norm_num)
  have hlt : pixelOffset offset + (max (pixelExtent extent) 1 : ℕ) - (pixelExtent side : ℤ) < 2 := by
    exact_mod_cast (by linarith : ((pixelOffset offset + (max (pixelExtent extent) 1 : ℕ)
      - pixelExtent side : ℤ) : ℚ) < 2)
  omega

/-- What ends two and a half pixels beyond the canvas before rounding ends more than one beyond it. -/
theorem lt_pixels (hoffset : 0 ≤ offset) (hextent : 0 ≤ extent) (hfirst : offset ≤ side)
    (hlength : extent ≤ side) (hcanvas : pixelExtent side ≤ maxCanvasSide)
    (hend : side + 5 / 2 ≤ offset + extent) :
    (pixelExtent side : ℤ) + 1 < pixelOffset offset + (max (pixelExtent extent) 1 : ℕ) := by
  obtain ⟨hlower, -⟩ := pixels_near hoffset hextent hfirst hlength hcanvas
  have hlt : 1 < pixelOffset offset + (max (pixelExtent extent) 1 : ℕ) - (pixelExtent side : ℤ) := by
    exact_mod_cast (by linarith : (1 : ℚ) < ((pixelOffset offset + (max (pixelExtent extent) 1 : ℕ)
      - pixelExtent side : ℤ) : ℚ))
  omega

/-! ## The union of the photos -/

namespace Bounds

theorem grow_map_absorb (boxes : List (Bounds ℚ)) : grow (boxes.map .absorb) = union boxes := by
  unfold grow union
  rw [List.foldl_map]
  rfl

/-- A rectangle that holds another one, as the places on a canvas need it. -/
structure Frames (frame b : Bounds ℚ) : Prop where
  wellFormed : frame.WellFormed
  eastward_le : eastward frame.west b.west ≤ frame.span
  span_le : b.span ≤ frame.span
  south_le : frame.south ≤ b.south
  le_north : b.north ≤ frame.north
  ends : frame.span < 360 → eastward frame.west b.west + b.span ≤ frame.span

variable {boxes : List (Bounds ℚ)} {frame b : Bounds ℚ}

/-- A rectangle is framed by every other one that holds all of its points. -/
theorem frames_of_holds (hframe : frame.WellFormed) (hb : b.WellFormed)
    (h : ∀ lon lat, b.Holds lon lat → frame.Holds lon lat) : frame.Frames b := by
  have hcorner := h b.west b.south hb.holds_corner
  have hupper := h b.west b.north hb.holds_upperCorner
  have hends : frame.span < 360 → eastward frame.west b.west + b.span ≤ frame.span := by
    intro hgap
    have hcovers : ArcCovers frame.west frame.span b := fun lon hlon =>
      (holds_iff.1 (h lon b.south ((onArc_iff_near hb).1 hlon))).1
    obtain ⟨t, ht0, ht1, ht⟩ := hcovers.withinArc hb hgap
    linarith [eastward_le_of ht ht0]
  have hwide : b.span ≤ frame.span := by
    rcases lt_or_ge frame.span 360 with hgap | hring
    · linarith [hends hgap, eastward_nonneg frame.west b.west]
    · exact hb.span_le_turn.trans hring
  exact ⟨hframe, hcorner.eastward_le_span, hwide, (holds_iff.1 hcorner).2.1, (holds_iff.1 hupper).2.2,
    hends⟩

/-- A union frames each of its parts. -/
theorem frames_union (hboxes : ∀ b ∈ boxes, b.WellFormed) (hb : b ∈ boxes) :
    (union boxes).Frames b := by
  have hsteps : ∀ step ∈ boxes.map GrowthStep.absorb, step.Valid := by
    simpa [GrowthStep.Valid] using hboxes
  have hmem : GrowthStep.absorb b ∈ boxes.map GrowthStep.absorb := List.mem_map_of_mem hb
  have hholds : ∀ lon lat, b.Holds lon lat → (union boxes).WellFormed ∧ (union boxes).Holds lon lat := by
    intro lon lat hpoint
    rw [← grow_map_absorb]
    exact holds_grow hsteps hmem hpoint
  exact frames_of_holds (hholds _ _ (hboxes b hb).holds_corner).1 (hboxes b hb)
    fun lon lat hpoint => (hholds lon lat hpoint).2

end Bounds

/-! ## Photos on the canvas -/

/-- A canvas that was made has the sides asked for, and these are within the limits. -/
theorem blank_eq_ok {width height : ℕ} {format : PixelFormat} {canvas : Raster}
    (h : Raster.blank width height format = .ok canvas) :
    canvas = .zero width height format ∧ width ≤ maxCanvasSide ∧ height ≤ maxCanvasSide := by
  unfold Raster.blank at h
  split_ifs at h with hzero hlarge
  rw [not_or, not_lt, not_lt] at hlarge
  exact ⟨(Except.ok.inj h).symm, hlarge⟩

namespace Orthophoto

/-- A photo of a rectangle with some width and some height, in some pixels. -/
structure Sized (p : Orthophoto ℚ) : Prop where
  wellFormed : p.bounds.WellFormed
  span_pos : 0 < p.bounds.span
  south_lt : p.bounds.south < p.bounds.north
  width_pos : 0 < p.width
  height_pos : 0 < p.height

/-- The properties of such a photo, in the order of the rationals. -/
theorem sized_iff (p : Orthophoto ℚ) :
    p.Sized ↔ p.bounds.WellFormed ∧ 0 < p.bounds.span ∧ p.bounds.south < p.bounds.north
      ∧ 0 < p.width ∧ 0 < p.height :=
  ⟨fun h => ⟨h.wellFormed, h.span_pos, h.south_lt, h.width_pos, h.height_pos⟩,
    fun ⟨h1, h2, h3, h4, h5⟩ => ⟨h1, h2, h3, h4, h5⟩⟩

instance (p : Orthophoto ℚ) : Decidable p.Sized :=
  decidable_of_iff _ (sized_iff p).symm

/-- The degrees that a photo reaches over the eastern edge of a rectangle from whose western edge it is
measured. -/
def overhang (p : Orthophoto ℚ) (frame : Bounds ℚ) : ℚ :=
  frame.lonPosition p.bounds.west + p.bounds.span - frame.span

variable {photos : List (Orthophoto ℚ)} {first p result : Orthophoto ℚ} {frame : Bounds ℚ}
  {d : PixelDensity ℚ}

/-- The density of a photo of some size is positive. -/
theorem Sized.density_pos (h : p.Sized) : 0 < p.density.perLon ∧ 0 < p.density.perLat := by
  have hempty := h.wellFormed.isEmpty_eq_false
  have hwidth : (0 : ℚ) < p.width := by exact_mod_cast h.width_pos
  have hheight : (0 : ℚ) < p.height := by exact_mod_cast h.height_pos
  have hlat := sub_pos.2 h.south_lt
  unfold density Bounds.width Bounds.height
  rw [hempty, ofNat_eq_cast, ofNat_eq_cast]
  exact ⟨div_pos hwidth h.span_pos, div_pos hheight hlat⟩

/-- Where a photo of some size is painted, by what is measured from the corner of its frame. -/
theorem Sized.footprint_placement (h : p.Sized) (hframe : frame.Frames p.bounds) (canvasHeight : ℕ) :
    p.footprint d = (max (pixelExtent (p.bounds.span * d.perLon)) 1,
        max (pixelExtent ((p.bounds.north - p.bounds.south) * d.perLat)) 1)
      ∧ p.placement d frame canvasHeight
        = (pixelOffset (eastward frame.west p.bounds.west * d.perLon),
          canvasHeight - pixelOffset ((p.bounds.south - frame.south) * d.perLat)
            - (p.footprint d).2) := by
  have hempty := h.wellFormed.isEmpty_eq_false
  have hempty' := hframe.wellFormed.isEmpty_eq_false
  refine ⟨?_, ?_⟩
  · unfold footprint Bounds.width Bounds.height
    rw [hempty]
    rfl
  · unfold placement Bounds.lonOffsetFrom Bounds.latOffsetFrom
    rw [hempty, hempty', Bounds.lonPosition_of_le hframe.eastward_le]
    rfl

/-- North and south a photo stays on the canvas of its frame, apart from one row. -/
theorem Sized.rows_on_canvas (h : p.Sized) (hframe : frame.Frames p.bounds) (hd : 0 < d.perLat)
    (hcanvas : pixelExtent (frame.height * d.perLat) ≤ maxCanvasSide) :
    -1 ≤ (p.placement d frame (pixelExtent (frame.height * d.perLat))).2
      ∧ (p.placement d frame (pixelExtent (frame.height * d.perLat))).2 + ((p.footprint d).2 : ℤ)
        ≤ pixelExtent (frame.height * d.perLat) := by
  obtain ⟨hfootprint, hplacement⟩ := h.footprint_placement (d := d) hframe
    (pixelExtent (frame.height * d.perLat))
  have hheight : frame.height = frame.north - frame.south := by
    unfold Bounds.height
    rw [hframe.wellFormed.isEmpty_eq_false]
    rfl
  rw [hplacement, hfootprint]
  rw [hheight] at hcanvas ⊢
  have hoffset : 0 ≤ (p.bounds.south - frame.south) * d.perLat :=
    mul_nonneg (sub_nonneg.2 hframe.south_le) hd.le
  have hextent : 0 ≤ (p.bounds.north - p.bounds.south) * d.perLat :=
    mul_nonneg (sub_nonneg.2 h.south_lt.le) hd.le
  have hend : (p.bounds.south - frame.south) * d.perLat
      + (p.bounds.north - p.bounds.south) * d.perLat ≤ (frame.north - frame.south) * d.perLat := by
    rw [← add_mul]
    exact mul_le_mul_of_nonneg_right (by linarith [hframe.le_north]) hd.le
  have hfits := pixels_le hoffset hextent (by linarith) (by linarith) hcanvas (by linarith)
  have hstart := pixelOffset_of_nonneg hoffset
  have hfloor : 0 ≤ ⌊(p.bounds.south - frame.south) * d.perLat + 1 / 2⌋ :=
    Int.floor_nonneg.2 (by linarith)
  unfold Word.greatest64 at hstart
  dsimp only
  omega

/-- East and west a photo stays on the canvas of its frame, apart from one column, unless it reaches over
the eastern edge; and what reaches over it is beyond the canvas. -/
theorem Sized.columns_on_canvas (h : p.Sized) (hframe : frame.Frames p.bounds) (hd : 0 < d.perLon)
    (hcanvas : pixelExtent (frame.width * d.perLon) ≤ maxCanvasSide) (canvasHeight : ℕ) :
    0 ≤ (p.placement d frame canvasHeight).1
      ∧ (p.overhang frame * d.perLon ≤ 1 / 2 →
        (p.placement d frame canvasHeight).1 + ((p.footprint d).1 : ℤ)
          ≤ pixelExtent (frame.width * d.perLon) + 1)
      ∧ (5 / 2 ≤ p.overhang frame * d.perLon → (pixelExtent (frame.width * d.perLon) : ℤ) + 1
        < (p.placement d frame canvasHeight).1 + (p.footprint d).1)
      ∧ (0 ≤ p.overhang frame → |(((p.placement d frame canvasHeight).1 + (p.footprint d).1
          - pixelExtent (frame.width * d.perLon) : ℤ) : ℚ) - p.overhang frame * d.perLon| < 3 / 2) := by
  obtain ⟨hfootprint, hplacement⟩ := h.footprint_placement (d := d) hframe canvasHeight
  have hwidth : frame.width = frame.span := by
    unfold Bounds.width
    rw [hframe.wellFormed.isEmpty_eq_false]
    rfl
  have hover : p.overhang frame * d.perLon = eastward frame.west p.bounds.west * d.perLon
      + p.bounds.span * d.perLon - frame.span * d.perLon := by
    unfold overhang
    rw [Bounds.lonPosition_of_le hframe.eastward_le, sub_mul, add_mul]
  rw [hplacement, hfootprint, hover]
  rw [hwidth] at hcanvas ⊢
  have hoffset : 0 ≤ eastward frame.west p.bounds.west * d.perLon :=
    mul_nonneg (eastward_nonneg _ _) hd.le
  have hextent : 0 ≤ p.bounds.span * d.perLon := mul_nonneg h.span_pos.le hd.le
  have hfirst := mul_le_mul_of_nonneg_right hframe.eastward_le hd.le
  have hlength := mul_le_mul_of_nonneg_right hframe.span_le hd.le
  refine ⟨?_, ?_, ?_, ?_⟩
  · have hfloor : 0 ≤ ⌊eastward frame.west p.bounds.west * d.perLon + 1 / 2⌋ :=
      Int.floor_nonneg.2 (by linarith)
    dsimp only
    rw [pixelOffset_of_nonneg hoffset]
    unfold Word.greatest64
    omega
  · exact fun hin => pixels_le hoffset hextent hfirst hlength hcanvas (by linarith)
  · exact fun hout => lt_pixels hoffset hextent hfirst hlength hcanvas (by linarith)
  · intro hnear
    have hpixels := mul_nonneg hnear hd.le
    rw [hover] at hpixels
    obtain ⟨hlower, hupper⟩ := pixels_near hoffset hextent hfirst hlength hcanvas
    rw [max_eq_left hpixels] at hupper
    rw [abs_lt]
    constructor <;> linarith

/-- Only over the seam of a ring can a photo reach. -/
theorem span_eq_of_overhang (hframe : frame.Frames p.bounds) (hover : 0 < p.overhang frame) :
    frame.span = 360 := by
  refine hframe.wellFormed.span_le_turn.antisymm (not_lt.1 fun hgap => ?_)
  unfold overhang at hover
  rw [Bounds.lonPosition_of_le hframe.eastward_le] at hover
  linarith [hframe.ends hgap]

/-- Painting keeps the size of the canvas. -/
theorem sides_foldl_paint (d : PixelDensity ℚ) (frame : Bounds ℚ) (photos : List (Orthophoto ℚ))
    (canvas : Raster) :
    (photos.foldl (paint d frame) canvas).width = canvas.width
      ∧ (photos.foldl (paint d frame) canvas).height = canvas.height := by
  induction photos generalizing canvas with
  | nil => exact ⟨rfl, rfl⟩
  | cons p photos ih => exact ih (paint d frame canvas p)

/-- A list of two photos or more, with its first ones taken off. -/
theorem exists_eq_of_head? (hcount : 2 ≤ photos.length) (hfirst : photos.head? = some first) :
    ∃ second rest, photos = first :: second :: rest := by
  match photos, hfirst, hcount with
  | [_], _, hcount => simp at hcount
  | _ :: second :: rest, rfl, _ => exact ⟨second, rest, rfl⟩

/-- Two photos or more whose canvas can be made are painted onto it in their order. -/
theorem compose_eq_ok {canvas : Raster} (hcount : 2 ≤ photos.length)
    (hfirst : photos.head? = some first) (hunion : Bounds.union (photos.map (·.bounds)) = frame)
    (hblank : Raster.blank (pixelExtent (frame.width * first.density.perLon))
      (pixelExtent (frame.height * first.density.perLat)) first.image.raster.format = .ok canvas) :
    compose photos = .ok (some ⟨⟨photos.foldl (paint first.density frame) canvas, none⟩, frame⟩) := by
  obtain ⟨second, rest, hphotos⟩ := exists_eq_of_head? hcount hfirst
  rw [compose_eq_map hphotos, hunion, hblank]
  rfl

/-- A collage of two photos or more shows their union, and every photo is painted onto it as an image of some
size at some place, inside the canvas save for one column and one row. This holds of every photo that ends
within the union or half a pixel beyond. One that reaches over the eastern edge, which only a ring has amid
a photo, is painted as far beyond the canvas, give or take less than one and a half pixels, and that part
of it is lost: two and a half pixels are always more than one column. -/
theorem compose_crops_at_seam (hsized : ∀ p ∈ photos, p.Sized) (hcount : 2 ≤ photos.length)
    (hfirst : photos.head? = some first) (h : compose photos = .ok (some result)) :
    result.bounds = Bounds.union (photos.map (·.bounds))
      ∧ result.image.raster = photos.foldl (paint first.density result.bounds)
        (.zero result.width result.height first.image.raster.format)
      ∧ ∀ p ∈ photos, ∃ (x y : ℤ) (w h : ℕ),
        p.placement first.density result.bounds result.height = (x, y)
        ∧ p.footprint first.density = (w, h)
        ∧ (∀ canvas : Raster, canvas.height = result.height →
          paint first.density result.bounds canvas p = canvas.blit (p.image.raster.scale w h) x y)
        ∧ 0 ≤ x ∧ -1 ≤ y ∧ y + h ≤ result.height
        ∧ (p.overhang result.bounds * first.density.perLon ≤ 1 / 2 → x + w ≤ result.width + 1)
        ∧ (5 / 2 ≤ p.overhang result.bounds * first.density.perLon → (result.width : ℤ) + 1 < x + w)
        ∧ (0 ≤ p.overhang result.bounds →
          |((x + w - result.width : ℤ) : ℚ) - p.overhang result.bounds * first.density.perLon| < 3 / 2)
        ∧ (0 < p.overhang result.bounds → result.bounds.span = 360) := by
  obtain ⟨second, rest, hphotos⟩ := exists_eq_of_head? hcount hfirst
  rw [compose_eq_map hphotos] at h
  generalize hunion : Bounds.union (photos.map (·.bounds)) = frame at h ⊢
  cases hblank : Raster.blank (pixelExtent (frame.width * first.density.perLon))
      (pixelExtent (frame.height * first.density.perLat)) first.image.raster.format with
  | error e =>
    rw [hblank] at h
    cases h
  | ok canvas =>
    obtain ⟨hcanvas, hwidth, hheight⟩ := blank_eq_ok hblank
    rw [hblank, hcanvas] at h
    obtain rfl := Option.some.inj (Except.ok.inj h)
    obtain ⟨hwide, hhigh⟩ := sides_foldl_paint first.density frame photos
      (.zero (pixelExtent (frame.width * first.density.perLon))
        (pixelExtent (frame.height * first.density.perLat)) first.image.raster.format)
    obtain ⟨hlon, hlat⟩ := (hsized first (by simp [hphotos])).density_pos
    unfold width height
    dsimp only
    rw [hwide, hhigh]
    refine ⟨rfl, rfl, fun p hp => ?_⟩
    have hboxes : ∀ b ∈ photos.map (·.bounds), b.WellFormed := by
      intro b hb
      obtain ⟨q, hq, rfl⟩ := List.mem_map.1 hb
      exact (hsized q hq).wellFormed
    have hframe : frame.Frames p.bounds := by
      rw [← hunion]
      exact Bounds.frames_union hboxes (List.mem_map_of_mem hp)
    obtain ⟨hleft, hcolumns⟩ := (hsized p hp).columns_on_canvas hframe hlon hwidth
      (pixelExtent (frame.height * first.density.perLat))
    obtain ⟨htop, hbottom⟩ := (hsized p hp).rows_on_canvas hframe hlat hheight
    refine ⟨_, _, _, _, rfl, rfl, ?_, hleft, htop, hbottom, hcolumns.1, hcolumns.2.1, hcolumns.2.2,
      span_eq_of_overhang hframe⟩
    intro canvas hcanvas
    unfold paint
    rw [hcanvas]
    rfl

/-- Two photos that meet at the antimeridian, of different densities: the second one, on the other side of it
and further north, is painted in full as well. -/
theorem compose_crops_at_seam_at_antimeridian :
    ∃ first second result : Orthophoto ℚ,
      (first.bounds = ⟨170, 10, 0, 5⟩ ∧ first.Sized)
        ∧ (second.bounds = ⟨-180, 4, 5, 10⟩ ∧ second.Sized)
        ∧ compose [first, second] = .ok (some result) ∧ result.width = 28
        ∧ second.overhang result.bounds ≤ 0
        ∧ ∃ (x : ℤ) (w : ℕ), (second.footprint first.density).1 = w ∧ 0 ≤ x ∧ x + w ≤ 29 := by
  let first : Orthophoto ℚ := ⟨⟨.zero 20 10 .gray8, none⟩, ⟨170, 10, 0, 5⟩⟩
  let second : Orthophoto ℚ := ⟨⟨.zero 3 3 .gray16, none⟩, ⟨-180, 4, 5, 10⟩⟩
  have hsized : ∀ p ∈ [first, second], p.Sized := by decide +kernel
  have hblank : Raster.blank
      (pixelExtent ((Bounds.union ([first, second].map (·.bounds))).width * first.density.perLon))
      (pixelExtent ((Bounds.union ([first, second].map (·.bounds))).height * first.density.perLat))
      first.image.raster.format = .ok (.zero 28 20 .gray8) := by
    rw [show pixelExtent ((Bounds.union ([first, second].map (·.bounds))).width
        * first.density.perLon) = 28 by decide +kernel,
      show pixelExtent ((Bounds.union ([first, second].map (·.bounds))).height
        * first.density.perLat) = 20 by decide +kernel]
    rfl
  have hcompose := compose_eq_ok (show 2 ≤ [first, second].length from le_refl 2) rfl rfl hblank
  have hover : second.overhang (Bounds.union ([first, second].map (·.bounds))) ≤ 0 := by
    decide +kernel
  obtain ⟨-, -, hphotos⟩ := compose_crops_at_seam hsized (le_refl 2) rfl hcompose
  obtain ⟨x, y, w, h, -, hsize, -, hx, -, -, hin, -⟩ := hphotos second (by simp)
  have hpixels : second.overhang (Bounds.union ([first, second].map (·.bounds)))
      * first.density.perLon ≤ 1 / 2 := by decide +kernel
  exact ⟨first, second, _, ⟨rfl, hsized first (by simp)⟩, ⟨rfl, hsized second (by simp)⟩, hcompose,
    rfl, hover, x, w, congrArg Prod.fst hsize, hx, hin hpixels⟩

/-- Seven tiles of a row next to the pole, which are 12 degrees wide, and one of the row south of it, which is
4 degrees wide and lies amid the span of the first. -/
def tilesRoundPole : List (Orthophoto ℚ) :=
  ([168, -180, -12, 72, 120, 144, 156].map fun west =>
    ⟨⟨.tabulate 12 1 .gray8 (fun _ _ => [17]) (fun _ _ => rfl), none⟩, ⟨west, 12, 89, 713 / 8⟩⟩)
    ++ [⟨⟨.tabulate 4 1 .gray8 (fun _ _ => [255]) (fun _ _ => rfl), none⟩, ⟨172, 4, 711 / 8, 89⟩⟩]

/-- The last of these tiles gives the ring its western edge, amid the first one. That is painted four columns
from the eastern end of the canvas, where two thirds of it are cropped, and the columns at the western end that
show the same ground stay blank. -/
theorem compose_crops_tilesRoundPole :
    (∀ p ∈ tilesRoundPole, p.Sized) ∧ 2 ≤ tilesRoundPole.length
      ∧ ∃ first result : Orthophoto ℚ, tilesRoundPole.head? = some first
        ∧ compose tilesRoundPole = .ok (some result)
        ∧ result.bounds = ⟨172, 360, 711 / 8, 713 / 8⟩ ∧ result.width = 360 ∧ result.height = 2
        ∧ first.footprint first.density = (12, 1)
        ∧ first.placement first.density result.bounds result.height = (356, 0)
        ∧ ¬ ((356 : ℤ) + 12 ≤ result.width + 1)
        ∧ result.image.raster.pixel? 0 0 = some [0] ∧ first.image.raster.pixel? 4 0 = some [17] := by
  let first : Orthophoto ℚ := tilesRoundPole.head (by decide)
  let ring : Bounds ℚ := ⟨172, 360, 711 / 8, 713 / 8⟩
  have hunion : Bounds.union (tilesRoundPole.map (·.bounds)) = ring :=
    (Bounds.mk.injEq ..).mpr (by decide +kernel)
  have hblank : Raster.blank (pixelExtent (ring.width * first.density.perLon))
      (pixelExtent (ring.height * first.density.perLat)) first.image.raster.format
        = .ok (.zero 360 2 .gray8) := by
    rw [show pixelExtent (ring.width * first.density.perLon) = 360 by decide +kernel,
      show pixelExtent (ring.height * first.density.perLat) = 2 by decide +kernel]
    rfl
  have hcompose := compose_eq_ok (by decide) rfl hunion hblank
  obtain ⟨hwidth, hheight⟩ := sides_foldl_paint first.density ring tilesRoundPole (.zero 360 2 .gray8)
  have hplacement : first.placement first.density ring 2 = (356, 0) := by decide +kernel
  refine ⟨by decide +kernel, by decide, first, _, rfl, hcompose, rfl, hwidth, hheight,
    by decide +kernel, ?_, ?_, by decide +kernel, rfl⟩
  · rw [← hplacement]
    exact congrArg _ hheight
  · change ¬ (356 : ℤ) + 12 ≤ ((tilesRoundPole.foldl (paint first.density ring) _).width : ℕ) + 1
    rw [hwidth]
    decide

end Orthophoto

end Orthomosaic
