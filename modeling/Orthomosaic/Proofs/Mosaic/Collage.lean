import Orthomosaic.Mosaic.Collage
import Orthomosaic.Proofs.Mosaic.RingCover
import Orthomosaic.Proofs.Mosaic.Stitch

/-!
# Collages of the cells of a grid

The tiles of a grid can be stitched by their numbers, or composed as orthophotos of the extents of
their buckets. The one counts blocks; the other multiplies degrees by a density and rounds. For a
grid that leaves a gap the degrees of every cell are whole numbers of cells, so in exact arithmetic
nothing is rounded: sides (`pixelExtent_width`), offsets (`Block.lonOffsetFrom_eq`) and blocks
(`Block.paint_eq`) are those that stitching has, and `compose_photos` says that the two canvases,
refusals included, are one.
-/

namespace Orthomosaic

open Scalar

/-! ## Whole numbers of pixels -/

/-- A whole number is nearest to itself. -/
theorem nearest_intCast (low high n : ℤ) :
    nearest low high (n : ℚ) = max low (min high n) := by
  have hround : Rational.nearestInt (n : ℚ) = n := by
    unfold Rational.nearestInt
    split_ifs
    · change ⌊(n : ℚ) + 1 / 2⌋ = n
      rw [Int.floor_eq_iff]
      constructor <;> linarith
    · rw [Rat.ceil_eq_neg_floor_neg]
      change -⌊-((n : ℚ) - 1 / 2)⌋ = n
      rw [neg_eq_iff_eq_neg, Int.floor_eq_iff]
      push_cast
      constructor <;> linarith
  change max low (min high (Rational.nearestInt (n : ℚ))) = _
  rw [hround]

/-- A whole number of pixels is an extent, held within a word. -/
theorem pixelExtent_natCast (n : ℕ) : pixelExtent (n : ℚ) = min n Word.unsigned32 := by
  have hnearest : nearest 0 (Word.unsigned32 : ℤ) (n : ℚ)
      = max 0 (min (Word.unsigned32 : ℤ) n) := by
    exact_mod_cast nearest_intCast 0 Word.unsigned32 (n : ℤ)
  unfold pixelExtent
  rw [hnearest]
  split_ifs with hpos
  · omega
  · have hzero : ¬ (0 : ℚ) < n := fun h => hpos ⟨rfl, by rw [literal_eq]; exact_mod_cast h⟩
    have : n = 0 := by
      by_contra hne
      exact hzero (by exact_mod_cast Nat.pos_of_ne_zero hne)
    omega

/-- A whole number of pixels is an offset, if it is one of a canvas. -/
theorem pixelOffset_natCast {n : ℕ} (h : n ≤ maxCanvasSide) : pixelOffset (n : ℚ) = n := by
  have hnearest := nearest_intCast Word.least64 Word.greatest64 (n : ℤ)
  rw [Int.cast_natCast] at hnearest
  unfold pixelOffset
  rw [hnearest]
  unfold maxCanvasSide at h
  unfold Word.least64 Word.greatest64
  omega

/-- With two photos or more, all depends on whether the canvas can be made. -/
theorem Orthophoto.compose_eq_map {α : Type} [Scalar α] {photos rest : List (Orthophoto α)}
    {first second : Orthophoto α} (h : photos = first :: second :: rest) :
    compose photos
      = (Raster.blank
          (pixelExtent ((Bounds.union (photos.map (·.bounds))).width * first.density.perLon))
          (pixelExtent ((Bounds.union (photos.map (·.bounds))).height * first.density.perLat))
          first.image.raster.format).map
        fun canvas => some
          ⟨⟨photos.foldl (paint first.density (Bounds.union (photos.map (·.bounds)))) canvas, none⟩,
            Bounds.union (photos.map (·.bounds))⟩ := by
  subst h
  unfold compose
  dsimp only
  split
  · next e he =>
    rw [he]
    rfl
  · next canvas hcanvas =>
    rw [hcanvas]
    rfl

namespace BucketGrid

/-- The orthophotos of the cells of a grid, one image for each cell in their order. -/
def photos {α : Type} [Scalar α] (grid : BucketGrid α) (images : List Image) :
    List (Orthophoto α) :=
  (images.zip grid.cells).map fun p => ⟨p.1, p.2.bounds⟩

/-- The density at which the cells of a row have a size in pixels. -/
def blockDensity (row : ℤ) (width height : ℕ) : PixelDensity ℚ :=
  ⟨width / rowWidth row, height * 8⟩

variable {row row' column column' : ℤ} {width height : ℕ} {grid : BucketGrid ℚ}

/-! ## Cells in pixels -/

/-- The width and the height of a cell. -/
theorem width_height_bounds_ofCell (row column : ℤ) :
    ((Bucket.ofCell row column).bounds : Bounds ℚ).width = rowWidth row
      ∧ ((Bucket.ofCell row column).bounds : Bounds ℚ).height = 1 / 8 := by
  have hempty := (Bucket.wellFormed_bounds_ofCell row column).isEmpty_eq_false
  have hrow := rowSouth_succ row
  unfold Bounds.width Bounds.height
  rw [hempty, Bucket.bounds_ofCell]
  refine ⟨rfl, ?_⟩
  change rowSouth (row + 1) - rowSouth row = 1 / 8
  linarith

/-- The density of the photo of a cell. -/
theorem density_photo (image : Image) (row column : ℤ) :
    (⟨image, (Bucket.ofCell row column).bounds⟩ : Orthophoto ℚ).density
      = blockDensity row image.raster.width image.raster.height := by
  obtain ⟨hwidth, hheight⟩ := width_height_bounds_ofCell row column
  unfold Orthophoto.density blockDensity Orthophoto.width Orthophoto.height
  rw [hwidth, hheight, ofNat_eq_cast, ofNat_eq_cast]
  congr 1
  ring

/-- A whole number of widths in pixels. -/
theorem mul_rowWidth_mul_perLon (row : ℤ) (width height k : ℕ) :
    (k : ℚ) * rowWidth row * (blockDensity row width height).perLon = (k * width : ℕ) := by
  have hw : rowWidth row ≠ 0 := by linarith [le_rowWidth row]
  unfold blockDensity
  dsimp only
  push_cast
  field_simp

/-- A whole number of heights in pixels. -/
theorem div_eight_mul_perLat (row : ℤ) (width height k : ℕ) :
    (k : ℚ) / 8 * (blockDensity row width height).perLat = (k * height : ℕ) := by
  unfold blockDensity
  dsimp only
  push_cast
  ring

/-- At that density every photo of a row of the same width is as large as a block. -/
theorem footprint_photo (image : Image) (hunits : rowUnits row' = rowUnits row) (hw : 0 < width)
    (hh : 0 < height) (hw' : width ≤ maxCanvasSide) (hh' : height ≤ maxCanvasSide) :
    (⟨image, (Bucket.ofCell row' column').bounds⟩ : Orthophoto ℚ).footprint
      (blockDensity row width height) = (width, height) := by
  obtain ⟨hwidth, hheight⟩ := width_height_bounds_ofCell row' column'
  have hrow : rowWidth row' = rowWidth row := by
    unfold rowWidth
    rw [hunits]
  have hlon := mul_rowWidth_mul_perLon row width height 1
  have hlat := div_eight_mul_perLat row width height 1
  rw [Nat.cast_one, one_mul, one_mul] at hlon
  rw [Nat.cast_one, one_mul] at hlat
  unfold maxCanvasSide at hw' hh'
  unfold Orthophoto.footprint
  rw [hwidth, hheight, hrow, hlon, hlat, pixelExtent_natCast, pixelExtent_natCast]
  unfold Word.unsigned32
  congr 1 <;> omega

/-! ## Cells on the canvas -/

/-- The cells of a block that leaves a gap lie whole widths east of its western edge. -/
theorem Block.lonOffsetFrom_eq (h : Block row column grid)
    (hgap : (grid.columns : ℤ) < rowColumns row) {r c : ℕ} (hr : r < grid.rows)
    (hc : c < grid.columns) :
    ((Bucket.ofCell (row + r) (column + c)).bounds : Bounds ℚ).lonOffsetFrom grid.bounds
      = c * rowWidth row := by
  have hempty := (Bucket.wellFormed_bounds_ofCell (row + r) (column + c)).isEmpty_eq_false
  have hempty' := h.wellFormed_bounds.isEmpty_eq_false
  obtain ⟨hwest, hspan⟩ := h.west_span_open hgap
  have hcell := (west_span_bounds (h.units_eq r hr) (column + c)).1
  have heast : eastward (cellWest row column) (cellWest row (column + c)) = c * rowWidth row := by
    rw [eastward_cellWest (by omega) (by omega), Int.cast_natCast]
  have hfit : (c : ℚ) * rowWidth row ≤ grid.columns * rowWidth row := by
    have hcq : (c : ℚ) ≤ grid.columns := by exact_mod_cast hc.le
    exact mul_le_mul_of_nonneg_right hcq (by linarith [le_rowWidth row])
  unfold Bounds.lonOffsetFrom
  rw [hempty, hempty', if_neg (by decide), Bounds.lonPosition_of_le, hwest, hcell, heast]
  rw [hwest, hcell, heast, hspan]
  exact hfit

/-- The cells of a block lie whole heights north of its southern edge. -/
theorem Block.latOffsetFrom_eq (h : Block row column grid) (r c : ℕ) :
    ((Bucket.ofCell (row + r) (column + c)).bounds : Bounds ℚ).latOffsetFrom grid.bounds
      = (r : ℚ) / 8 := by
  have hempty := (Bucket.wellFormed_bounds_ofCell (row + r) (column + c)).isEmpty_eq_false
  have hempty' := h.wellFormed_bounds.isEmpty_eq_false
  unfold Bounds.latOffsetFrom
  rw [hempty, hempty', if_neg (by decide), h.south_north.1, Bucket.bounds_ofCell]
  unfold rowSouth
  push_cast
  ring

/-- The cell of a block with a number in the order of the cells. -/
theorem Block.eq_ofCell (h : Block row column grid) {i : ℕ} {cell : Bucket}
    (hcell : grid.cells[i]? = some cell) :
    i / grid.columns < grid.rows ∧ i % grid.columns < grid.columns
      ∧ cell = Bucket.ofCell (row + (i / grid.columns : ℕ)) (column + (i % grid.columns : ℕ)) := by
  have hpos := h.columns_pos
  have hi : i < grid.rows * grid.columns := by
    obtain ⟨hlt, -⟩ := List.getElem?_eq_some_iff.1 hcell
    rwa [h.cells_eq, length_cellRows] at hlt
  have hr := div_lt_of_lt_mul hi
  have hc := Nat.mod_lt i hpos
  refine ⟨hr, hc, ?_⟩
  rw [h.cells_eq, ← Nat.div_add_mod' i grid.columns, getElem?_cellRows row column hr hc] at hcell
  exact (Option.some.inj hcell).symm

/-- The sides of a canvas that is not refused, and of its blocks. -/
theorem Block.sides_of_not_refused (h : Block row column grid)
    (hfits : ¬ Refused grid width height) :
    (0 < width ∧ 0 < height) ∧ (width ≤ maxCanvasSide ∧ height ≤ maxCanvasSide)
      ∧ grid.columns * width ≤ maxCanvasSide ∧ grid.rows * height ≤ maxCanvasSide := by
  unfold Refused at hfits
  rw [not_or, not_or, not_or, not_lt, not_lt] at hfits
  obtain ⟨hwidth, hheight, hwide, hhigh⟩ := hfits
  have hw := Nat.le_mul_of_pos_left width h.columns_pos
  have hh := Nat.le_mul_of_pos_left height h.rows_pos
  omega

/-- The place on the canvas of the photo of a cell is that of its block. -/
theorem Block.placement_photo (h : Block row column grid)
    (hgap : (grid.columns : ℤ) < rowColumns row) (hfits : ¬ Refused grid width height)
    (image : Image) {r c : ℕ} (hr : r < grid.rows) (hc : c < grid.columns) :
    (⟨image, (Bucket.ofCell (row + r) (column + c)).bounds⟩ : Orthophoto ℚ).placement
        (blockDensity row width height) grid.bounds (grid.rows * height)
      = (((c * width : ℕ) : ℤ), (((grid.rows - 1 - r) * height : ℕ) : ℤ)) := by
  obtain ⟨⟨hw, hh⟩, ⟨hw', hh'⟩, hwide, hhigh⟩ := h.sides_of_not_refused hfits
  have hcolumn : c * width ≤ maxCanvasSide :=
    (Nat.mul_le_mul_right width hc.le).trans hwide
  have hrow : r * height ≤ maxCanvasSide :=
    (Nat.mul_le_mul_right height hr.le).trans hhigh
  -- counted from the top, the rows above this one and the rows up to it are all there are
  have hflip : (grid.rows - 1 - r) * height + r * height + height = grid.rows * height := by
    rw [← Nat.add_mul, ← Nat.succ_mul]
    congr 1
    omega
  unfold Orthophoto.placement
  dsimp only
  rw [footprint_photo image (h.units_eq r hr) hw hh hw' hh', h.lonOffsetFrom_eq hgap hr hc,
    h.latOffsetFrom_eq r c, mul_rowWidth_mul_perLon, div_eight_mul_perLat,
    pixelOffset_natCast hcolumn, pixelOffset_natCast hrow]
  refine Prod.ext rfl ?_
  change ((grid.rows * height : ℕ) : ℤ) - (r * height : ℕ) - height = _
  omega

/-- The photo of a cell is painted over its block. -/
theorem Block.paint_eq (h : Block row column grid) (hgap : (grid.columns : ℤ) < rowColumns row)
    (hfits : ¬ Refused grid width height) {canvas : Raster}
    (hcanvas : canvas.height = grid.rows * height) (image : Image) {i : ℕ} {cell : Bucket}
    (hcell : grid.cells[i]? = some cell) :
    Orthophoto.paint (blockDensity row width height) grid.bounds canvas ⟨image, cell.bounds⟩
      = paintCell grid width height canvas i image.raster := by
  obtain ⟨hr, hc, rfl⟩ := h.eq_ofCell hcell
  obtain ⟨⟨hw, hh⟩, ⟨hw', hh'⟩, -⟩ := h.sides_of_not_refused hfits
  unfold Orthophoto.paint paintCell
  dsimp only
  rw [footprint_photo image (h.units_eq _ hr) hw hh hw' hh', hcanvas,
    h.placement_photo hgap hfits image hr hc]

/-- Painting the photos of cells that follow one another is painting their tiles. -/
theorem Block.foldl_paint_eq (h : Block row column grid)
    (hgap : (grid.columns : ℤ) < rowColumns row) (hfits : ¬ Refused grid width height)
    (canvas : Raster) (hcanvas : canvas.height = grid.rows * height) {images : List Image}
    {cells : List Bucket} (hlength : images.length = cells.length) (start : ℕ)
    (hcells : ∀ i cell, cells[i]? = some cell → grid.cells[start + i]? = some cell) :
    ((images.zip cells).map fun p => ⟨p.1, p.2.bounds⟩).foldl
        (Orthophoto.paint (blockDensity row width height) grid.bounds) canvas
      = ((images.map fun image => some image.raster).zipIdx start).foldl
        (paintEntry grid width height) canvas := by
  induction images generalizing cells canvas start with
  | nil => rfl
  | cons image images ih =>
    cases cells with
    | nil => cases hlength
    | cons cell cells =>
      have hpaint := h.paint_eq hgap hfits hcanvas image (hcells 0 cell rfl)
      rw [Nat.add_zero] at hpaint
      have hnext : (paintCell grid width height canvas start image.raster).height
          = grid.rows * height := hcanvas
      rw [List.zip_cons_cons, List.map_cons, List.foldl_cons, hpaint, List.map_cons,
        List.zipIdx_cons, List.foldl_cons]
      refine ih _ hnext (Nat.succ.inj hlength) (start + 1) ?_
      intro i other hother
      rw [Nat.add_assoc, Nat.add_comm 1 i]
      exact hcells (i + 1) other hother

/-! ## Composing and stitching -/

/-- The union of the extents of the cells of a block is its rectangle. -/
theorem Block.union_eq (h : Block row column grid) :
    Bounds.union (grid.cells.map fun cell => (cell.bounds : Bounds ℚ)) = grid.bounds := by
  obtain ⟨rest, hcells, hbounds⟩ := h.bounds_eq_cover
  have hfirst := (Bucket.wellFormed_bounds_ofCell row column).isEmpty_eq_false
  rw [hcells, hbounds]
  unfold Bounds.union cover
  rw [List.map_cons, List.foldl_cons, Bounds.absorb_of_isEmpty_left Bounds.isEmpty_empty hfirst,
    List.foldl_map]

/-- The extents of the photos are those of the cells. -/
theorem map_bounds_photos {images : List Image} (hlength : images.length = grid.cells.length) :
    (grid.photos images).map (·.bounds) = grid.cells.map fun cell => (cell.bounds : Bounds ℚ) := by
  have hcells : (images.zip grid.cells).map Prod.snd = grid.cells := List.map_snd_zip hlength.ge
  unfold photos
  rw [List.map_map]
  conv_rhs => rw [← hcells, List.map_map]
  rfl

/-- The sides of a canvas that shows a block that leaves a gap. -/
theorem Block.pixelExtent_bounds (h : Block row column grid)
    (hgap : (grid.columns : ℤ) < rowColumns row) (width height : ℕ) :
    pixelExtent (grid.bounds.width * (blockDensity row width height).perLon)
        = canvasSide grid.columns width
      ∧ pixelExtent (grid.bounds.height * (blockDensity row width height).perLat)
        = canvasSide grid.rows height := by
  have hempty := h.wellFormed_bounds.isEmpty_eq_false
  obtain ⟨hsouth, hnorth⟩ := h.south_north
  have hwidth : grid.bounds.width = grid.columns * rowWidth row := by
    unfold Bounds.width
    rw [hempty]
    exact (h.west_span_open hgap).2
  have hheight : grid.bounds.height = (grid.rows : ℚ) / 8 := by
    unfold Bounds.height
    rw [hempty, if_neg (by decide), hsouth, hnorth]
    unfold rowSouth
    push_cast
    ring
  rw [hwidth, hheight, mul_rowWidth_mul_perLon, div_eight_mul_perLat]
  exact ⟨pixelExtent_natCast _, pixelExtent_natCast _⟩

/-- The photos of a block that leaves a gap are composed as their tiles are stitched. -/
theorem Block.compose_photos_eq (h : Block row column grid)
    (hgap : (grid.columns : ℤ) < rowColumns row) (hcells : 2 ≤ grid.cells.length)
    {images : List Image} (hlength : images.length = grid.cells.length) :
    Orthophoto.compose (grid.photos images)
      = (grid.stitch (images.map fun image => some image.raster)).map
        (Option.map fun canvas => ⟨⟨canvas, none⟩, grid.bounds⟩) := by
  obtain ⟨rest, hrest, -⟩ := h.bounds_eq_cover
  obtain ⟨first, second, others, himages⟩ : ∃ first second others,
      images = first :: second :: others := by
    match images with
    | [] | [_] => simp only [List.length_nil, List.length_singleton] at hlength; omega
    | first :: second :: others => exact ⟨first, second, others, rfl⟩
  obtain ⟨cell, cells, rfl⟩ : ∃ cell cells, rest = cell :: cells := by
    cases rest with
    | nil => rw [hrest] at hcells; simp at hcells
    | cons cell cells => exact ⟨cell, cells, rfl⟩
  have hphotos : grid.photos images = ⟨first, (Bucket.ofCell row column).bounds⟩
      :: ⟨second, cell.bounds⟩ :: (others.zip cells).map fun p => ⟨p.1, p.2.bounds⟩ := by
    unfold photos
    rw [hrest, himages]
    rfl
  have htiles : (images.map fun image => some image.raster)
      = List.replicate 0 none ++ some first.raster
        :: (second :: others).map fun image => some image.raster := by
    rw [himages]
    rfl
  obtain ⟨hwide, hhigh⟩ := h.pixelExtent_bounds hgap first.raster.width first.raster.height
  rw [Orthophoto.compose_eq_map hphotos, stitch_eq_map grid htiles, map_bounds_photos hlength,
    h.union_eq, density_photo, hwide, hhigh]
  by_cases hfits : Refused grid first.raster.width first.raster.height
  · obtain ⟨e, he⟩ := blank_of_refused h.columns_pos h.rows_pos first.raster.format hfits
    rw [he]
    rfl
  · rw [blank_of_not_refused h.columns_pos h.rows_pos first.raster.format hfits]
    have hfold := h.foldl_paint_eq hgap hfits (.zero (grid.columns * first.raster.width)
      (grid.rows * first.raster.height) first.raster.format) rfl hlength 0
      (fun i cell hcell => by rwa [Nat.zero_add])
    rw [← paintCells_eq _ _ _ _ _ (by rwa [List.length_map])] at hfold
    unfold photos
    rw [Except.map, hfold]
    rfl

variable {desired : Bounds ℚ}

/-- Of two cells or more that leave a gap, the photos are composed to the canvas that their tiles
are stitched to, or both are refused for one reason; and the composed photo shows the rectangle of
the grid. -/
theorem compose_photos (h : resolve desired = .ok (some grid)) (hcells : 2 ≤ grid.cells.length)
    (hnarrow : grid.bounds.width < 360) {images : List Image}
    (hlength : images.length = grid.cells.length) :
    (∃ e, grid.stitch (images.map fun image => some image.raster) = .error e
        ∧ Orthophoto.compose (grid.photos images) = .error e)
      ∨ ∃ canvas, grid.stitch (images.map fun image => some image.raster) = .ok (some canvas)
        ∧ Orthophoto.compose (grid.photos images) = .ok (some ⟨⟨canvas, none⟩, grid.bounds⟩) := by
  obtain ⟨row, column, hblock⟩ := (resolved_of_resolve h).exists_block_of_any
  rw [hblock.compose_photos_eq (hblock.columns_lt hnarrow) hcells hlength]
  cases hstitch : grid.stitch (images.map fun image => some image.raster) with
  | error e => exact .inl ⟨e, rfl, rfl⟩
  | ok answer =>
    cases answer with
    | none =>
      -- there is a cell, hence a tile
      obtain ⟨image, himage⟩ := List.exists_mem_of_length_pos (l := images) (by omega)
      have hnone := (stitch_eq_none_iff grid _).1 hstitch _
        (List.mem_map_of_mem (f := fun image : Image => some image.raster) himage)
      cases hnone
    | some canvas => exact .inr ⟨canvas, rfl, rfl⟩

/-- Two rows of two cells at the antimeridian, with images of two sizes and formats: both paths make
one canvas, with the samples of the wider image at the lower left and the upper right. -/
theorem compose_photos_at_antimeridian :
    ∃ (grid : BucketGrid ℚ) (canvas : Raster) (wide narrow : Image),
      resolve (⟨1799 / 10, 3 / 20, 0, 1 / 5⟩ : Bounds ℚ) = .ok (some grid)
        ∧ grid.cells.length = 4 ∧ grid.bounds.width < 360
        ∧ (wide.raster.width = 2 ∧ wide.raster.format = .gray8)
        ∧ (narrow.raster.width = 1 ∧ narrow.raster.format = .rgb8)
        ∧ grid.stitch ([wide, narrow, narrow, wide].map fun image => some image.raster)
          = .ok (some canvas)
        ∧ Orthophoto.compose (grid.photos [wide, narrow, narrow, wide])
          = .ok (some ⟨⟨canvas, none⟩, grid.bounds⟩)
        ∧ (canvas.pixel? 0 1 = some [7] ∧ canvas.pixel? 1 1 = some [9])
        ∧ (canvas.pixel? 2 0 = some [7] ∧ canvas.pixel? 3 0 = some [9]) := by
  obtain ⟨grid, hgrid, htest⟩ := exists_of_resolvesWith
    (show resolvesWith (⟨1799 / 10, 3 / 20, 0, 1 / 5⟩ : Bounds ℚ) (fun grid =>
      decide ((grid.cells.length = 4 ∧ grid.columns = 2 ∧ grid.rows = 2)
        ∧ grid.bounds.width < 360)) = true by decide +kernel)
  obtain ⟨⟨hcells, hcolumns, hrows⟩, hnarrow⟩ := of_decide_eq_true htest
  let wide : Image := ⟨.tabulate 2 1 .gray8 (fun x _ => [7 + 2 * x.toUInt32]) (fun _ _ => rfl), none⟩
  let narrow : Image := ⟨.tabulate 1 1 .rgb8 (fun _ _ => [10, 20, 30]) (fun _ _ => rfl), none⟩
  have hfits : ¬ Refused grid wide.raster.width wide.raster.height := by
    unfold Refused
    rw [hcolumns, hrows]
    decide
  have hstitch := stitch_eq_map grid (show ([wide, narrow, narrow, wide].map fun image =>
    some image.raster) = List.replicate 0 none ++ some wide.raster
      :: [narrow, narrow, wide].map fun image => some image.raster from rfl)
  rw [blank_of_not_refused (by omega) (by omega) _ hfits] at hstitch
  rcases compose_photos hgrid (by omega) hnarrow
    (show [wide, narrow, narrow, wide].length = grid.cells.length from hcells.symm) with
    ⟨e, he, -⟩ | ⟨canvas, hcanvas, hcompose⟩
  · rw [hstitch] at he
    cases he
  · have hpainted := Option.some.inj (Except.ok.inj (hcanvas.symm.trans hstitch))
    have hshows : Shows grid ([wide, narrow, narrow, wide].map fun image => some image.raster) 2 1
        .gray8 canvas := by
      rw [hpainted]
      exact shows_paintCells (by decide) (by decide) (by rw [hcells, hcolumns, hrows]) hcells.symm
    have hwidth : canvas.width = 4 := by rw [hshows.width_eq, hcolumns]
    have hheight : canvas.height = 2 := by rw [hshows.height_eq, hrows]
    have hcell : ∀ x y, cellAt grid 2 1 x y = (1 - y / 1) * 2 + x / 2 := by
      intro x y
      unfold cellAt
      rw [hcolumns, hrows]
    have hsouth : ∀ x < 2, canvas.pixel? x 1 = wide.raster.pixel? (x % 2) (1 % 1) := fun x hx =>
      hshows.pixel?_eq (i := 0) rfl rfl rfl rfl (by rw [hcell]; omega) (by omega) (by omega)
    have hnorth : ∀ x < 2, canvas.pixel? (2 + x) 0 = wide.raster.pixel? ((2 + x) % 2) (0 % 1) :=
      fun x hx =>
        hshows.pixel?_eq (i := 3) rfl rfl rfl rfl (by rw [hcell]; omega) (by omega) (by omega)
    exact ⟨grid, canvas, wide, narrow, hgrid, hcells, hnarrow, ⟨rfl, rfl⟩, ⟨rfl, rfl⟩, hcanvas,
      hcompose, ⟨hsouth 0 (by decide), hsouth 1 (by decide)⟩, hnorth 0 (by decide),
      hnorth 1 (by decide)⟩

end BucketGrid

end Orthomosaic
