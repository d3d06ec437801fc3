import Orthomosaic.Raster.Format
import Orthomosaic.Word

/-!
# Rasters

A raster is a rectangle of pixels of one format, row by row from the top. `Raster.pixel?` is the view
of it that statements use: the pixel at a place, if the place is inside. `Raster.tabulate` builds a
raster from a rule for its pixels, and `Raster.pixel?_tabulate` says that the rule is what one sees.
-/

namespace Orthomosaic

/-- A rectangle of pixels, row by row from the top and each row from the left. -/
structure Raster where
  width : Nat
  height : Nat
  format : PixelFormat
  pixels : Array Pixel
  size_pixels : pixels.size = width * height
  length_pixel : ∀ p ∈ pixels, p.length = format.sampleCount

namespace Raster

/-- The pixel in a column and row, if the place is inside. -/
def pixel? (r : Raster) (x y : Nat) : Option Pixel :=
  if x < r.width ∧ y < r.height then r.pixels[y * r.width + x]? else none

/-- The bytes that the samples take. -/
def byteSize (r : Raster) : Nat :=
  r.width * r.height * r.format.pixelBytes

/-- The bytes of a sample, the lowest first. -/
def sampleBytes (depth : Depth) (w : UInt32) : List UInt8 :=
  (List.range depth.bytes).map fun k => (w >>> (8 * k).toUInt32).toUInt8

/-- The sample of some bytes, the lowest first. -/
def sampleOfBytes (bytes : List UInt8) : UInt32 :=
  bytes.foldr (fun b w => w * 256 + b.toUInt32) 0

/-- The bytes of all samples, pixel by pixel. -/
def toBytes (r : Raster) : List UInt8 :=
  r.pixels.toList.flatMap fun p => p.flatMap (sampleBytes r.format.depth)

/-- The bytes of all samples, pixel by pixel, the highest byte of each sample first. -/
def bigEndianBytes (r : Raster) : List UInt8 :=
  r.pixels.toList.flatMap fun p => p.flatMap fun w => (sampleBytes r.format.depth w).reverse

/-- Whether two rasters agree in size, format and every sample. -/
def same (r s : Raster) : Bool :=
  r.width == s.width && r.height == s.height && r.format == s.format && r.pixels == s.pixels

/-- The raster whose pixel in column `x` and row `y` is `pixel x y`. -/
def tabulate (width height : Nat) (format : PixelFormat) (pixel : Nat → Nat → Pixel)
    (length_pixel : ∀ x y, (pixel x y).length = format.sampleCount) : Raster where
  width := width
  height := height
  format := format
  pixels := Array.ofFn (n := width * height) fun i => pixel (i % width) (i / width)
  size_pixels := Array.size_ofFn
  length_pixel := by
    intro p hp
    obtain ⟨i, rfl⟩ := Array.mem_ofFn.1 hp
    exact length_pixel _ _

/-- The raster with the given bytes, if there are as many as it needs. -/
def ofBytes? (width height : Nat) (format : PixelFormat) (bytes : List UInt8) : Option Raster :=
  if bytes.length = width * height * format.pixelBytes then
    let bytes := bytes.toArray
    let size := format.depth.bytes
    some <| tabulate width height format
      (fun x y => (List.range format.sampleCount).map fun k =>
        let start := (y * width + x) * format.pixelBytes + k * size
        sampleOfBytes (bytes.extract start (start + size)).toList)
      (fun _ _ => by rw [List.length_map, List.length_range])
  else none

/-- The pixel all of whose samples are zero. -/
def zeroPixel (format : PixelFormat) : Pixel :=
  List.replicate format.sampleCount 0

/-- The raster whose samples are all zero. -/
def zero (width height : Nat) (format : PixelFormat) : Raster where
  width := width
  height := height
  format := format
  pixels := Array.replicate (width * height) (zeroPixel format)
  size_pixels := Array.size_replicate
  length_pixel := by
    intro p hp
    rw [Array.eq_of_mem_replicate hp]
    exact List.length_replicate

/-- A column and a row of a raster have their place among its pixels. -/
theorem index_lt {width height x y : Nat} (hx : x < width) (hy : y < height) :
    y * width + x < width * height := by
  have h : (y + 1) * width ≤ height * width := Nat.mul_le_mul_right width hy
  rw [Nat.add_mul, Nat.one_mul, Nat.mul_comm height width] at h
  omega

theorem index_mod {width x y : Nat} (hx : x < width) : (y * width + x) % width = x := by
  rw [Nat.mul_comm, Nat.mul_add_mod, Nat.mod_eq_of_lt hx]

theorem index_div {width x y : Nat} (hx : x < width) : (y * width + x) / width = y := by
  rw [Nat.mul_comm, Nat.mul_add_div (by omega), Nat.div_eq_of_lt hx, Nat.add_zero]

/-- A tabulated raster has the tabulated pixel at every place within its sides, and none elsewhere.
-/
@[simp] theorem pixel?_tabulate {width height : Nat} {format : PixelFormat}
    {pixel : Nat → Nat → Pixel} {h : ∀ x y, (pixel x y).length = format.sampleCount} {x y : Nat} :
    (tabulate width height format pixel h).pixel? x y
      = if x < width ∧ y < height then some (pixel x y) else none := by
  by_cases hxy : x < width ∧ y < height
  · obtain ⟨hx, hy⟩ := hxy
    simp [pixel?, tabulate, hx, hy, index_lt hx hy, index_mod hx, index_div hx]
  · simp [pixel?, tabulate, hxy]

/-- The zero raster has the zero pixel at every place within its sides, and none elsewhere. -/
@[simp] theorem pixel?_zero {width height : Nat} {format : PixelFormat} {x y : Nat} :
    (zero width height format).pixel? x y
      = if x < width ∧ y < height then some (zeroPixel format) else none := by
  by_cases hxy : x < width ∧ y < height
  · have hi := index_lt hxy.1 hxy.2
    simp [pixel?, zero, hxy, hi]
  · simp [pixel?, zero, hxy]

end Raster

/-- Why a canvas cannot be made. -/
inductive CanvasError where
  | zeroSized (width height : Nat)
  | tooLarge (width height : Nat)
deriving DecidableEq, Repr

/-- The longest side of a canvas. -/
def maxCanvasSide : Nat := 16384

/-- The wording of the error. -/
def CanvasError.message : CanvasError → String
  | zeroSized w h => s!"Invalid canvas dimensions {w}×{h}: zero-sized"
  | tooLarge w h => s!"Invalid canvas dimensions {w}×{h}: exceeds maximum of {maxCanvasSide}"

/-- A canvas to paint on, with all its samples zero. -/
def Raster.blank (width height : Nat) (format : PixelFormat) : Except CanvasError Raster :=
  if width = 0 ∨ height = 0 then .error (.zeroSized width height)
  else if maxCanvasSide < width ∨ maxCanvasSide < height then .error (.tooLarge width height)
  else .ok (.zero width height format)

end Orthomosaic
