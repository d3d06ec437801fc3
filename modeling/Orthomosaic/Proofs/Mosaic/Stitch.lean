import Mathlib.Data.List.Nodup
import Orthomosaic.Mosaic.Stitch
import Orthomosaic.Proofs.Mosaic.Resolve
import Orthomosaic.Proofs.Raster.Conversion
import Orthomosaic.Proofs.Raster.Scale
import Orthomosaic.Proofs.Scalar.Exact

/-!
# What a stitched canvas shows

A canvas is cut into blocks of one size, one for each cell: `cellAt` names the cell of a place and
`InBlock` the places of a cell, and the two say the same (`inBlock_iff`), so the blocks neither
overlap nor leave the canvas nor leave anything of it over. Painting a tile therefore changes the
places of its own cell only, and painting many of them in any order shows at each place the tile of
the cell there (`pixel?_paintEntries`). What a tile shows is told by its own samples: they are kept if it
has the size of a block (`tilePixel?_of_size`), and otherwise their means are seen (`tilePixel?_of_scaled`).

`stitch_spec` puts this together with the choice of a block's size and the checks of the canvas.
-/

namespace Orthomosaic.BucketGrid

variable {α : Type} {grid : BucketGrid α} {width height : ℕ}

/-- The cell whose block holds a place of the canvas: rows are counted from the bottom. -/
def cellAt (grid : BucketGrid α) (width height x y : ℕ) : ℕ :=
  (grid.rows - 1 - y / height) * grid.columns + x / width

/-- The places that the tile of a cell is painted over. -/
def InBlock (grid : BucketGrid α) (width height i x y : ℕ) : Prop :=
  (i % grid.columns * width ≤ x ∧ x < i % grid.columns * width + width)
    ∧ (grid.rows - 1 - i / grid.columns) * height ≤ y
    ∧ y < (grid.rows - 1 - i / grid.columns) * height + height

/-- What belongs at a place of the canvas: the pixel of the tile, scaled to a block and in the format
of the canvas, or a zero pixel where there is no tile. -/
def tilePixel? (format : PixelFormat) (width height : ℕ) (tile : Option Raster) (x y : ℕ) :
    Option Pixel :=
  match tile with
  | some tile => ((tile.scale width height).convert format).pixel? (x % width) (y % height)
  | none => some (Raster.zeroPixel format)

/-- The canvas after the tile of a cell has been painted, if there is one. -/
def paintEntry (grid : BucketGrid α) (width height : ℕ) (canvas : Raster)
    (entry : Option Raster × ℕ) : Raster :=
  match entry with
  | (some tile, i) => paintCell grid width height canvas i tile
  | (none, _) => canvas

/-! ## Tiles -/

section Tiles

variable {format : PixelFormat} {tile : Raster} {x y : ℕ}

/-- What scaling leaves is shown in the format of the canvas. -/
theorem tilePixel?_of_scale {pixel : Pixel}
    (h : (tile.scale width height).pixel? (x % width) (y % height) = some pixel) :
    tilePixel? format width height (some tile) x y = some (tile.format.convert format pixel) := by
  have hshown := Raster.pixel?_convert (f := format) h
  rw [Raster.format_scale] at hshown
  exact hshown

/-- A tile of a block's size is shown sample by sample, unchanged in its own format. -/
theorem tilePixel?_of_size (hwidth : tile.width = width) (hheight : tile.height = height)
    (hw : 0 < width) (hh : 0 < height) :
    ∃ pixel, tile.pixel? (x % width) (y % height) = some pixel
      ∧ tilePixel? format width height (some tile) x y = some (tile.format.convert format pixel)
      ∧ (tile.format = format → tilePixel? format width height (some tile) x y = some pixel) := by
  obtain ⟨pixel, hpixel⟩ := tile.exists_pixel? ((Nat.mod_lt x hw).trans_eq hwidth.symm)
    ((Nat.mod_lt y hh).trans_eq hheight.symm)
  have hshown : tilePixel? format width height (some tile) x y
      = some (tile.format.convert format pixel) :=
    tilePixel?_of_scale (by rw [Raster.scale_of_size hwidth hheight, hpixel])
  refine ⟨pixel, hpixel, hshown, ?_⟩
  rintro rfl
  rw [hshown, PixelFormat.convert_self (Raster.length_of_pixel? hpixel)]

/-- Any other tile is shown by the means of its samples. -/
theorem tilePixel?_of_scaled (hsize : ¬ (tile.width = width ∧ tile.height = height))
    (hwidth : 0 < tile.width) (hheight : 0 < tile.height) (hw : 0 < width) (hh : 0 < height) :
    tilePixel? format width height (some tile) x y = some (tile.format.convert format
      (tile.meanPixel width height (x % width) (y % height))) :=
  tilePixel?_of_scale
    (Raster.pixel?_scale hsize hwidth hheight (Nat.mod_lt x hw) (Nat.mod_lt y hh))

theorem tilePixel?_of_empty (hsize : ¬ (tile.width = width ∧ tile.height = height))
    (hempty : tile.width = 0 ∨ tile.height = 0) (hw : 0 < width) (hh : 0 < height) :
    tilePixel? format width height (some tile) x y
      = some (tile.format.convert format (Raster.zeroPixel tile.format)) :=
  tilePixel?_of_scale
    (Raster.pixel?_scale_of_empty hsize hempty (Nat.mod_lt x hw) (Nat.mod_lt y hh))

end Tiles

/-! ## Blocks -/

/-- A place lies in a stretch of a block's length exactly when the stretch has the number of the
place. -/
theorem stretch_iff {length : ℕ} (hlength : 0 < length) (k x : ℕ) :
    k * length ≤ x ∧ x < k * length + length ↔ x / length = k := by
  rw [Nat.div_eq_iff hlength, Nat.mul_comm]
  omega

theorem div_lt_of_lt_mul {count length x : ℕ} (hx : x < count * length) : x / length < count :=
  Nat.div_lt_of_lt_mul (by rw [Nat.mul_comm]; exact hx)

theorem flip_lt {count k : ℕ} (h : k < count) : count - 1 - k < count := by
  omega

theorem flip_flip {count k : ℕ} (h : k < count) : count - 1 - (count - 1 - k) = k := by
  omega

/-- The blocks part the canvas: a place is in the block of a cell exactly when it is on the canvas
and the cell is the one there. -/
theorem inBlock_iff (hw : 0 < width) (hh : 0 < height) {i : ℕ}
    (hi : i < grid.rows * grid.columns) (x y : ℕ) :
    InBlock grid width height i x y
      ↔ x < grid.columns * width ∧ y < grid.rows * height
        ∧ cellAt grid width height x y = i := by
  have hcolumns : 0 < grid.columns := Nat.pos_of_mul_pos_left (Nat.zero_lt_of_lt hi)
  have hrow : i / grid.columns < grid.rows := div_lt_of_lt_mul hi
  have hcolumn : i % grid.columns < grid.columns := Nat.mod_lt i hcolumns
  unfold InBlock cellAt
  rw [stretch_iff hw, stretch_iff hh]
  constructor
  · rintro ⟨hx, hy⟩
    have hx' : x / width < grid.columns := hx.trans_lt hcolumn
    have hy' : y / height < grid.rows := hy.trans_lt (flip_lt hrow)
    refine ⟨(Nat.div_lt_iff_lt_mul hw).1 hx', (Nat.div_lt_iff_lt_mul hh).1 hy', ?_⟩
    rw [hy, flip_flip hrow, hx, Nat.div_add_mod']
  · rintro ⟨hx, hy, rfl⟩
    have hx' : x / width < grid.columns := div_lt_of_lt_mul hx
    have hy' : y / height < grid.rows := div_lt_of_lt_mul hy
    rw [Raster.index_mod hx', Raster.index_div hx']
    exact ⟨rfl, (flip_flip hy').symm⟩

/-- Every place of the canvas lies in the block of a cell. -/
theorem cellAt_lt {x y : ℕ} (hx : x < grid.columns * width) (hy : y < grid.rows * height) :
    cellAt grid width height x y < grid.rows * grid.columns := by
  have hx' : x / width < grid.columns := div_lt_of_lt_mul hx
  have hy' : y / height < grid.rows := div_lt_of_lt_mul hy
  rw [Nat.mul_comm grid.rows]
  exact Raster.index_lt hx' (flip_lt hy')

/-! ## Painting -/

/-- Painting a tile keeps the sides and the format of the canvas. -/
theorem sides_paintEntry (grid : BucketGrid α) (width height : ℕ) (canvas : Raster)
    (entry : Option Raster × ℕ) :
    (paintEntry grid width height canvas entry).width = canvas.width
      ∧ (paintEntry grid width height canvas entry).height = canvas.height
      ∧ (paintEntry grid width height canvas entry).format = canvas.format := by
  obtain ⟨tile, i⟩ := entry
  cases tile with
  | none => exact ⟨rfl, rfl, rfl⟩
  | some tile => exact ⟨rfl, rfl, rfl⟩

/-- Painting tiles keeps the sides and the format of the canvas. -/
theorem sides_paintEntries (grid : BucketGrid α) (width height : ℕ) (canvas : Raster)
    (entries : List (Option Raster × ℕ)) :
    (entries.foldl (paintEntry grid width height) canvas).width = canvas.width
      ∧ (entries.foldl (paintEntry grid width height) canvas).height = canvas.height
      ∧ (entries.foldl (paintEntry grid width height) canvas).format = canvas.format := by
  induction entries generalizing canvas with
  | nil => exact ⟨rfl, rfl, rfl⟩
  | cons entry entries ih =>
    obtain ⟨hw, hh, hf⟩ := sides_paintEntry grid width height canvas entry
    obtain ⟨hw', hh', hf'⟩ := ih (paintEntry grid width height canvas entry)
    exact ⟨hw'.trans hw, hh'.trans hh, hf'.trans hf⟩

/-- A place of the canvas after the tile of a cell has been painted: in the block of the cell it
shows the tile. -/
theorem pixel?_paintCell {canvas : Raster} (tile : Raster) {i x y : ℕ} (hw : 0 < width)
    (hh : 0 < height) (hcw : canvas.width = grid.columns * width) (hch : canvas.height = grid.rows * height)
    (hi : i < grid.rows * grid.columns) (hx : x < canvas.width) (hy : y < canvas.height) :
    (paintCell grid width height canvas i tile).pixel? x y
      = if cellAt grid width height x y = i
        then tilePixel? canvas.format width height (some tile) x y
        else canvas.pixel? x y := by
  have hblock := inBlock_iff hw hh hi x y
  unfold InBlock at hblock
  unfold paintCell
  dsimp only
  rw [Raster.pixel?_blit _ _ _ _ hx hy, Raster.width_scale, Raster.height_scale]
  rw [hcw] at hx
  rw [hch] at hy
  by_cases hhere : cellAt grid width height x y = i
  · obtain ⟨hcolumn, hrow⟩ := hblock.2 ⟨hx, hy, hhere⟩
    have hxdiv := (stretch_iff hw _ _).1 hcolumn
    have hydiv := (stretch_iff hh _ _).1 hrow
    have hxmod := Nat.div_add_mod' x width
    have hymod := Nat.div_add_mod' y height
    rw [hxdiv] at hxmod
    rw [hydiv] at hymod
    have hxplace : ((x : ℤ) - ((i % grid.columns * width : ℕ) : ℤ)).toNat = x % width := by omega
    have hyplace : ((y : ℤ) - (((grid.rows - 1 - i / grid.columns) * height : ℕ) : ℤ)).toNat
        = y % height := by omega
    rw [if_pos hhere, if_pos (by omega), hxplace, hyplace]
    rfl
  · rw [if_neg hhere, if_neg]
    rintro ⟨hcolumn, hrow⟩
    exact hhere (hblock.1 ⟨by omega, by omega⟩).2.2

/-- A place of the canvas after the entry of a cell has been painted. An entry without a tile leaves
zero pixels as they are. -/
theorem pixel?_paintEntry {canvas : Raster} {entry : Option Raster × ℕ} {x y : ℕ} (hw : 0 < width)
    (hh : 0 < height) (hcw : canvas.width = grid.columns * width)
    (hch : canvas.height = grid.rows * height) (hi : entry.2 < grid.rows * grid.columns)
    (hx : x < canvas.width) (hy : y < canvas.height) :
    (cellAt grid width height x y ≠ entry.2 →
        (paintEntry grid width height canvas entry).pixel? x y = canvas.pixel? x y)
      ∧ (cellAt grid width height x y = entry.2 →
        canvas.pixel? x y = some (Raster.zeroPixel canvas.format) →
        (paintEntry grid width height canvas entry).pixel? x y
          = tilePixel? canvas.format width height entry.1 x y) := by
  obtain ⟨tile, i⟩ := entry
  cases tile with
  | none => exact ⟨fun _ => rfl, fun _ hzero => hzero⟩
  | some tile =>
    have hpixel := pixel?_paintCell tile hw hh hcw hch hi hx hy
    exact ⟨fun hne => hpixel.trans (if_neg hne), fun heq _ => hpixel.trans (if_pos heq)⟩

/-- A place of the canvas after entries of different cells have been painted over zero pixels, in any
order: it shows what the entry of its cell says, and stays zero if there is none. -/
theorem pixel?_paintEntries {canvas : Raster} {entries : List (Option Raster × ℕ)} {x y : ℕ}
    (hw : 0 < width) (hh : 0 < height) (hcw : canvas.width = grid.columns * width)
    (hch : canvas.height = grid.rows * height)
    (hcells : ∀ entry ∈ entries, entry.2 < grid.rows * grid.columns)
    (hnodup : (entries.map Prod.snd).Nodup) (hx : x < canvas.width) (hy : y < canvas.height) :
    (cellAt grid width height x y ∉ entries.map Prod.snd →
        (entries.foldl (paintEntry grid width height) canvas).pixel? x y = canvas.pixel? x y)
      ∧ ∀ tile, (tile, cellAt grid width height x y) ∈ entries →
        canvas.pixel? x y = some (Raster.zeroPixel canvas.format) →
        (entries.foldl (paintEntry grid width height) canvas).pixel? x y
          = tilePixel? canvas.format width height tile x y := by
  induction entries generalizing canvas with
  | nil => exact ⟨fun _ => rfl, fun tile htile => absurd htile List.not_mem_nil⟩
  | cons entry entries ih =>
    rw [List.map_cons, List.nodup_cons] at hnodup
    -- what this entry does to the place, and what the later ones do
    obtain ⟨hother, hsame⟩ := pixel?_paintEntry (x := x) (y := y) hw hh hcw hch
      (hcells entry (List.mem_cons_self ..)) hx hy
    obtain ⟨hw', hh', hf'⟩ := sides_paintEntry grid width height canvas entry
    obtain ⟨hrest, hlater⟩ := ih (hw'.trans hcw) (hh'.trans hch)
      (fun other h => hcells other (List.mem_cons_of_mem entry h)) hnodup.2
      (hx.trans_eq hw'.symm) (hy.trans_eq hh'.symm)
    rw [List.foldl_cons]
    refine ⟨?_, ?_⟩
    · intro hnone
      rw [List.map_cons, List.mem_cons, not_or] at hnone
      rw [hrest hnone.2, hother hnone.1]
    · intro tile htile hzero
      rcases List.mem_cons.1 htile with rfl | hin
      · -- this entry is the one of the place, and no later one is
        rw [hrest hnodup.1, hsame rfl hzero]
      · have hne : cellAt grid width height x y ≠ entry.2 := by
          intro heq
          exact hnodup.1 (heq ▸ List.mem_map_of_mem hin)
        rw [hlater tile hin (by rw [hother hne, hf', hzero]), hf']

/-! ## Stitching -/

/-- The tiles of the cells, with the number of their cells. -/
theorem paintCells_eq (grid : BucketGrid α) (width height : ℕ) (canvas : Raster)
    (tiles : List (Option Raster)) (hlength : tiles.length = grid.cells.length) :
    grid.paintCells width height canvas tiles
      = tiles.zipIdx.foldl (paintEntry grid width height) canvas := by
  unfold paintCells
  rw [← hlength, List.take_length]
  congr 1
  funext canvas ⟨tile, i⟩
  cases tile with
  | none => rfl
  | some tile => rfl

theorem nodup_zipIdx (tiles : List (Option Raster)) : (tiles.zipIdx.map Prod.snd).Nodup := by
  rw [List.zipIdx_map_snd]
  exact List.nodup_range'

/-- What a canvas shows that tiles are stitched to, one for each cell of a grid. A place shows the pixel
of its cell's tile, and zero samples where the cell has none: a tile of a block's size keeps its
samples, up to the change of format, and any other is shown by the means of them. -/
structure Shows (grid : BucketGrid α) (tiles : List (Option Raster)) (width height : ℕ)
    (format : PixelFormat) (canvas : Raster) : Prop where
  width_eq : canvas.width = grid.columns * width
  height_eq : canvas.height = grid.rows * height
  format_eq : canvas.format = format
  pixel_eq : ∀ x < canvas.width, ∀ y < canvas.height, ∃ cell tile pixel,
    grid.cell? (grid.rows - 1 - y / height) (x / width) = some cell
      ∧ tiles[(grid.rows - 1 - y / height) * grid.columns + x / width]? = some tile
      ∧ canvas.pixel? x y = some pixel
      ∧ tilePixel? format width height tile x y = some pixel
  pixel_of_missing : ∀ x < canvas.width, ∀ y < canvas.height,
    tiles[cellAt grid width height x y]? = some none →
      canvas.pixel? x y = some (Raster.zeroPixel format)
  pixel_of_size : ∀ x < canvas.width, ∀ y < canvas.height, ∀ tile,
    tiles[cellAt grid width height x y]? = some (some tile) →
      tile.width = width → tile.height = height →
        ∃ pixel, tile.pixel? (x % width) (y % height) = some pixel
          ∧ canvas.pixel? x y = some (tile.format.convert format pixel)
          ∧ (tile.format = format → canvas.pixel? x y = some pixel)
  pixel_of_scaled : ∀ x < canvas.width, ∀ y < canvas.height, ∀ tile,
    tiles[cellAt grid width height x y]? = some (some tile) →
      ¬ (tile.width = width ∧ tile.height = height) → 0 < tile.width → 0 < tile.height →
        canvas.pixel? x y = some (tile.format.convert format
          (tile.meanPixel width height (x % width) (y % height)))
  pixel_of_empty : ∀ x < canvas.width, ∀ y < canvas.height, ∀ tile,
    tiles[cellAt grid width height x y]? = some (some tile) →
      ¬ (tile.width = width ∧ tile.height = height) → tile.width = 0 ∨ tile.height = 0 →
        canvas.pixel? x y = some (tile.format.convert format (Raster.zeroPixel tile.format))
  inBlock_iff : ∀ i < grid.cells.length, ∀ x y, InBlock grid width height i x y
    ↔ x < canvas.width ∧ y < canvas.height ∧ cellAt grid width height x y = i
  order_free : ∀ entries : List (Option Raster × ℕ), entries.Perm tiles.zipIdx →
    entries.foldl (paintEntry grid width height)
      (.zero (grid.columns * width) (grid.rows * height) format) = canvas

/-- Painting the tiles of all cells on a zero canvas, one for each cell and in any order, shows them.
-/
theorem shows_foldl {tiles : List (Option Raster)} (format : PixelFormat)
    {entries : List (Option Raster × ℕ)} (hw : 0 < width) (hh : 0 < height)
    (hcells : grid.cells.length = grid.rows * grid.columns)
    (hlength : tiles.length = grid.cells.length) (hentries : entries.Perm tiles.zipIdx)
    {x y : ℕ} (hx : x < grid.columns * width) (hy : y < grid.rows * height) :
    ∃ tile, tiles[cellAt grid width height x y]? = some tile
      ∧ (entries.foldl (paintEntry grid width height)
          (.zero (grid.columns * width) (grid.rows * height) format)).pixel? x y
        = tilePixel? format width height tile x y := by
  have hcell : cellAt grid width height x y < tiles.length := by
    rw [hlength, hcells]
    exact cellAt_lt hx hy
  have htile := List.getElem?_eq_getElem hcell
  refine ⟨_, htile, ?_⟩
  have hnodup : (entries.map Prod.snd).Nodup :=
    (hentries.map Prod.snd).nodup_iff.2 (nodup_zipIdx tiles)
  have hplaces : ∀ entry ∈ entries, entry.2 < grid.rows * grid.columns := by
    intro entry hentry
    rw [← hcells, ← hlength]
    have hin := hentries.mem_iff.1 hentry
    exact (List.getElem?_eq_some_iff.1 (List.mem_zipIdx_iff_getElem?.1 hin)).1
  refine (pixel?_paintEntries hw hh rfl rfl hplaces hnodup hx hy).2 _ ?_ ?_
  · exact hentries.mem_iff.2 (List.mem_zipIdx_iff_getElem?.2 htile)
  · rw [Raster.pixel?_zero, if_pos ⟨hx, hy⟩]
    rfl

/-- Two orders of painting the tiles give one canvas, as each place shows the tile of its cell. -/
theorem foldl_paintEntry_congr {tiles : List (Option Raster)} (format : PixelFormat)
    {entries entries' : List (Option Raster × ℕ)} (hw : 0 < width) (hh : 0 < height)
    (hcells : grid.cells.length = grid.rows * grid.columns)
    (hlength : tiles.length = grid.cells.length) (hentries : entries.Perm tiles.zipIdx)
    (hentries' : entries'.Perm tiles.zipIdx) :
    entries.foldl (paintEntry grid width height)
        (.zero (grid.columns * width) (grid.rows * height) format)
      = entries'.foldl (paintEntry grid width height)
        (.zero (grid.columns * width) (grid.rows * height) format) := by
  obtain ⟨hwidth, hheight, hformat⟩ := sides_paintEntries grid width height
    (.zero (grid.columns * width) (grid.rows * height) format) entries
  obtain ⟨hwidth', hheight', hformat'⟩ := sides_paintEntries grid width height
    (.zero (grid.columns * width) (grid.rows * height) format) entries'
  refine Raster.ext_pixel? (hwidth.trans hwidth'.symm) (hheight.trans hheight'.symm)
    (hformat.trans hformat'.symm) fun x hx y hy => ?_
  rw [hwidth] at hx
  rw [hheight] at hy
  obtain ⟨tile, htile, hpixel⟩ := shows_foldl format hw hh hcells hlength hentries hx hy
  obtain ⟨tile', htile', hpixel'⟩ := shows_foldl format hw hh hcells hlength hentries' hx hy
  rw [htile] at htile'
  cases htile'
  exact hpixel.trans hpixel'.symm

/-- The canvas that is stitched shows the tiles. -/
theorem shows_paintCells {tiles : List (Option Raster)} {format : PixelFormat} (hw : 0 < width)
    (hh : 0 < height) (hcells : grid.cells.length = grid.rows * grid.columns)
    (hlength : tiles.length = grid.cells.length) :
    Shows grid tiles width height format (grid.paintCells width height
      (.zero (grid.columns * width) (grid.rows * height) format) tiles) := by
  rw [paintCells_eq _ _ _ _ _ hlength]
  obtain ⟨hwidth, hheight, hformat⟩ := sides_paintEntries grid width height
    (.zero (grid.columns * width) (grid.rows * height) format) tiles.zipIdx
  have hshown : ∀ x < grid.columns * width, ∀ y < grid.rows * height, ∀ tile,
      tiles[cellAt grid width height x y]? = some tile →
        (tiles.zipIdx.foldl (paintEntry grid width height)
          (.zero (grid.columns * width) (grid.rows * height) format)).pixel? x y
          = tilePixel? format width height tile x y := by
    intro x hx y hy tile htile
    obtain ⟨tile', htile', hpixel⟩ := shows_foldl format hw hh hcells hlength (.refl _) hx hy
    rw [htile] at htile'
    cases htile'
    exact hpixel
  refine ⟨hwidth, hheight, hformat, ?_, ?_, ?_, ?_, ?_, ?_, ?_⟩
  · intro x hx y hy
    obtain ⟨pixel, hplace⟩ := Raster.exists_pixel? _ hx hy
    rw [hwidth] at hx
    rw [hheight] at hy
    obtain ⟨tile, htile, hpixel⟩ :=
      shows_foldl format hw hh hcells hlength (.refl _) hx hy
    have hindex := cellAt_lt hx hy
    rw [← hcells] at hindex
    have hcell : grid.cell? (grid.rows - 1 - y / height) (x / width)
        = some (grid.cells.get ⟨cellAt grid width height x y, hindex⟩) := by
      refine (if_pos ⟨flip_lt (div_lt_of_lt_mul hy), div_lt_of_lt_mul hx⟩).trans ?_
      exact List.getElem?_eq_getElem hindex
    exact ⟨_, tile, pixel, hcell, htile, hplace, hpixel.symm.trans hplace⟩
  · intro x hx y hy htile
    exact hshown x (hx.trans_eq hwidth) y (hy.trans_eq hheight) none htile
  · intro x hx y hy tile htile htw hth
    rw [hshown x (hx.trans_eq hwidth) y (hy.trans_eq hheight) (some tile) htile]
    exact tilePixel?_of_size htw hth hw hh
  · intro x hx y hy tile htile hsize htw hth
    rw [hshown x (hx.trans_eq hwidth) y (hy.trans_eq hheight) (some tile) htile]
    exact tilePixel?_of_scaled hsize htw hth hw hh
  · intro x hx y hy tile htile hsize hempty
    rw [hshown x (hx.trans_eq hwidth) y (hy.trans_eq hheight) (some tile) htile]
    exact tilePixel?_of_empty hsize hempty hw hh
  · intro i hi x y
    rw [hcells] at hi
    rw [hwidth, hheight]
    exact BucketGrid.inBlock_iff hw hh hi x y
  · intro entries hentries
    exact foldl_paintEntry_congr format hw hh hcells hlength hentries (.refl _)

/-- A tile of a block's size and in the format of the canvas is a part of the canvas. -/
theorem Shows.pixel?_eq {tiles : List (Option Raster)} {format : PixelFormat} {canvas tile : Raster}
    {x y i : ℕ} (h : Shows grid tiles width height format canvas) (hwidth : tile.width = width)
    (hheight : tile.height = height) (hformat : tile.format = format)
    (htile : tiles[i]? = some (some tile)) (hcell : cellAt grid width height x y = i)
    (hx : x < canvas.width) (hy : y < canvas.height) :
    canvas.pixel? x y = tile.pixel? (x % width) (y % height) := by
  subst hcell
  obtain ⟨pixel, hpixel, -, hsame⟩ := h.pixel_of_size x hx y hy tile htile hwidth hheight
  rw [hsame hformat, hpixel]

/-- A side of the canvas is empty when the blocks are. -/
theorem canvasSide_eq_zero_iff {count : ℕ} (hcount : 0 < count) (block : ℕ) :
    canvasSide count block = 0 ↔ block = 0 := by
  unfold canvasSide Word.unsigned32
  rcases Nat.eq_zero_or_pos block with rfl | hblock
  · rw [Nat.mul_zero, Nat.zero_min]
  · have hprod := Nat.mul_pos hcount hblock
    omega

/-- Holding a side within a word does not bring it down to the limit. -/
theorem lt_canvasSide_iff (count block : ℕ) :
    maxCanvasSide < canvasSide count block ↔ maxCanvasSide < count * block := by
  unfold canvasSide Word.unsigned32 maxCanvasSide
  omega

/-- A side up to the limit is what it should be. -/
theorem canvasSide_of_le {count block : ℕ} (h : count * block ≤ maxCanvasSide) :
    canvasSide count block = count * block := by
  unfold maxCanvasSide at h
  unfold canvasSide Word.unsigned32
  omega

/-- A canvas for blocks of a size cannot be made: a block is empty, or the canvas would be too wide or
too high, in numbers that do not wrap around. -/
def Refused (grid : BucketGrid α) (width height : ℕ) : Prop :=
  width = 0 ∨ height = 0 ∨ maxCanvasSide < grid.columns * width
    ∨ maxCanvasSide < grid.rows * height

/-- A canvas that cannot be made is refused. -/
theorem blank_of_refused (hcolumns : 0 < grid.columns) (hrows : 0 < grid.rows)
    (format : PixelFormat) (h : Refused grid width height) :
    ∃ e, Raster.blank (canvasSide grid.columns width) (canvasSide grid.rows height) format
      = .error e := by
  unfold Raster.blank
  by_cases hempty : canvasSide grid.columns width = 0 ∨ canvasSide grid.rows height = 0
  · exact ⟨_, if_pos hempty⟩
  · rw [if_neg hempty]
    rw [canvasSide_eq_zero_iff hcolumns, canvasSide_eq_zero_iff hrows, not_or] at hempty
    have hover := (h.resolve_left hempty.1).resolve_left hempty.2
    rw [← lt_canvasSide_iff, ← lt_canvasSide_iff] at hover
    exact ⟨_, if_pos hover⟩

/-- A canvas that can be made is as wide and high as its blocks. -/
theorem blank_of_not_refused (hcolumns : 0 < grid.columns) (hrows : 0 < grid.rows)
    (format : PixelFormat) (h : ¬ Refused grid width height) :
    Raster.blank (canvasSide grid.columns width) (canvasSide grid.rows height) format
      = .ok (.zero (grid.columns * width) (grid.rows * height) format) := by
  unfold Refused at h
  rw [not_or, not_or, not_or, not_lt, not_lt] at h
  obtain ⟨hwidth, hheight, hwide, hhigh⟩ := h
  have hempty : ¬ (canvasSide grid.columns width = 0 ∨ canvasSide grid.rows height = 0) := by
    rw [canvasSide_eq_zero_iff hcolumns, canvasSide_eq_zero_iff hrows]
    exact not_or.2 ⟨hwidth, hheight⟩
  have hover : ¬ (maxCanvasSide < canvasSide grid.columns width
      ∨ maxCanvasSide < canvasSide grid.rows height) := by
    rw [lt_canvasSide_iff, lt_canvasSide_iff]
    exact not_or.2 ⟨not_lt.2 hwide, not_lt.2 hhigh⟩
  unfold Raster.blank
  rw [if_neg hempty, if_neg hover, canvasSide_of_le hwide, canvasSide_of_le hhigh]

/-- There is no canvas exactly when there is no tile. -/
theorem stitch_eq_none_iff (grid : BucketGrid α) (tiles : List (Option Raster)) :
    stitch grid tiles = .ok none ↔ ∀ tile ∈ tiles, tile = none := by
  unfold stitch
  constructor
  · intro hnone tile htile
    cases tile with
    | none => rfl
    | some tile =>
      have hmem : tile ∈ tiles.filterMap id := List.mem_filterMap.2 ⟨_, htile, rfl⟩
      split at hnone
      · next hempty =>
        rw [hempty] at hmem
        exact absurd hmem List.not_mem_nil
      · split at hnone <;> cases hnone
  · intro hall
    have hempty : tiles.filterMap id = [] :=
      List.filterMap_eq_nil_iff.2 fun tile htile => hall tile htile
    rw [hempty]

/-- With a tile, all depends on whether the canvas for blocks of the first one's size can be made. -/
theorem stitch_eq_map (grid : BucketGrid α) {tiles rest : List (Option Raster)} {first : Raster}
    {missing : ℕ} (htiles : tiles = List.replicate missing none ++ some first :: rest) :
    stitch grid tiles
      = (Raster.blank (canvasSide grid.columns first.width) (canvasSide grid.rows first.height)
          first.format).map
        fun canvas => some (grid.paintCells first.width first.height canvas tiles) := by
  have hfirst : tiles.filterMap id = first :: rest.filterMap id := by
    rw [htiles, List.filterMap_append, List.filterMap_replicate_of_none rfl]
    rfl
  unfold stitch
  rw [hfirst]
  dsimp only
  cases Raster.blank (canvasSide grid.columns first.width) (canvasSide grid.rows first.height)
      first.format with
  | error e => rfl
  | ok canvas => rfl

variable [Scalar α] {desired : Bounds α}

/-- Stitching the tiles of a resolved grid gives no canvas exactly when no cell has a tile. Otherwise
the first tile in the order of the cells sets the size of a block and the format; the canvas is
refused exactly when it would have an empty or too long a side, and else it shows the tiles. -/
theorem stitch_spec (h : resolve desired = .ok (some grid)) {tiles : List (Option Raster)}
    (hlength : tiles.length = grid.cells.length) :
    (stitch grid tiles = .ok none ↔ ∀ tile ∈ tiles, tile = none)
      ∧ ∀ missing first rest, tiles = List.replicate missing none ++ some first :: rest →
        ((∃ e, stitch grid tiles = .error e) ↔ Refused grid first.width first.height)
          ∧ (¬ Refused grid first.width first.height →
            ∃ canvas, stitch grid tiles = .ok (some canvas)
              ∧ Shows grid tiles first.width first.height first.format canvas) := by
  have hresolved := resolved_of_resolve h
  refine ⟨stitch_eq_none_iff grid tiles, ?_⟩
  intro missing first rest htiles
  rw [stitch_eq_map grid htiles]
  by_cases hrefused : Refused grid first.width first.height
  · obtain ⟨e, he⟩ :=
      blank_of_refused hresolved.columns_pos hresolved.rows_pos first.format hrefused
    rw [he]
    exact ⟨⟨fun _ => hrefused, fun _ => ⟨e, rfl⟩⟩, fun hgood => absurd hrefused hgood⟩
  · rw [blank_of_not_refused hresolved.columns_pos hresolved.rows_pos first.format hrefused]
    refine ⟨⟨?_, fun hbad => absurd hbad hrefused⟩, fun _ => ⟨_, rfl, ?_⟩⟩
    · rintro ⟨e, he⟩
      cases he
    · obtain ⟨hwidth, hheight, -⟩ := (not_or.1 hrefused).imp_right not_or.1
      exact shows_paintCells (Nat.pos_of_ne_zero hwidth) (Nat.pos_of_ne_zero hheight)
        hresolved.length_cells hlength

/-- Two rows of two cells at the antimeridian, the first and the last of which have no tile. The other
two differ in size and format, and the canvas takes both from the earlier one, whose two samples stand
at the lower right. Left of them the canvas is zero, and above that the later tile is scaled. -/
theorem stitch_spec_at_antimeridian :
    ∃ (grid : BucketGrid ℚ) (canvas : Raster) (first second : Raster),
      resolve (⟨1799 / 10, 3 / 20, 0, 1 / 5⟩ : Bounds ℚ) = .ok (some grid)
        ∧ grid.columns = 2 ∧ grid.rows = 2
        ∧ first.width = 2 ∧ first.height = 1 ∧ first.format = .gray8
        ∧ second.width = 1 ∧ second.height = 1 ∧ second.format = .rgb8
        ∧ stitch grid [none, some first, some second, none] = .ok (some canvas)
        ∧ Shows grid [none, some first, some second, none] 2 1 .gray8 canvas
        ∧ canvas.pixel? 0 1 = some [0] ∧ canvas.pixel? 1 1 = some [0]
        ∧ canvas.pixel? 2 1 = some [7] ∧ canvas.pixel? 3 1 = some [9]
        ∧ canvas.pixel? 0 0
          = some (PixelFormat.convert .rgb8 .gray8 (second.meanPixel 2 1 0 0)) := by
  obtain ⟨grid, hgrid, htest⟩ := exists_of_resolvesWith
    (show resolvesWith (⟨1799 / 10, 3 / 20, 0, 1 / 5⟩ : Bounds ℚ) (fun grid =>
      decide (grid.cells.length = 4 ∧ grid.columns = 2 ∧ grid.rows = 2)) = true by decide +kernel)
  obtain ⟨hcells, hcolumns, hrows⟩ := of_decide_eq_true htest
  let first : Raster := .tabulate 2 1 .gray8 (fun x _ => [7 + 2 * x.toUInt32]) (fun _ _ => rfl)
  let second : Raster := .tabulate 1 1 .rgb8 (fun _ _ => [10, 20, 30]) (fun _ _ => rfl)
  have hlength : [none, some first, some second, none].length = grid.cells.length := hcells.symm
  have hrefused : ¬ Refused grid first.width first.height := by
    unfold Refused
    rw [hcolumns, hrows]
    decide
  obtain ⟨canvas, hcanvas, hshows⟩ :=
    ((stitch_spec hgrid hlength).2 1 first [some second, none] rfl).2 hrefused
  change Shows grid _ 2 1 .gray8 canvas at hshows
  have hwidth : canvas.width = 4 := by rw [hshows.width_eq, hcolumns]
  have hheight : canvas.height = 2 := by rw [hshows.height_eq, hrows]
  have hcell : ∀ x y, cellAt grid 2 1 x y = (1 - y / 1) * 2 + x / 2 := by
    intro x y
    unfold cellAt
    rw [hcolumns, hrows]
  have hmissing : ∀ x < 2, canvas.pixel? x 1 = some [0] := fun x hx =>
    hshows.pixel_of_missing x (by omega) 1 (by omega) (by
      rw [hcell, show (1 - 1 / 1) * 2 + x / 2 = 0 by omega]
      rfl)
  have hfirst : ∀ x < 2, canvas.pixel? (2 + x) 1 = first.pixel? ((2 + x) % 2) (1 % 1) :=
    fun x hx => hshows.pixel?_eq (i := 1) rfl rfl rfl rfl (by rw [hcell]; omega) (by omega)
      (by omega)
  have hsecond := hshows.pixel_of_scaled 0 (by omega) 0 (by omega) second
    (by rw [hcell]; rfl) (by decide) (by decide) (by decide)
  exact ⟨grid, canvas, first, second, hgrid, hcolumns, hrows, rfl, rfl, rfl, rfl, rfl, rfl, hcanvas,
    hshows, hmissing 0 (by decide), hmissing 1 (by decide), hfirst 0 (by decide),
    hfirst 1 (by decide), hsecond⟩

end Orthomosaic.BucketGrid
