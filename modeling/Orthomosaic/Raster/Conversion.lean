import Orthomosaic.Raster.Basic
import Orthomosaic.Raster.Real

/-!
# Conversion between pixel formats

Between formats that are both gray or both coloured, each sample is converted on its own, a new
opacity is full and one that has no place is dropped. Between gray and colour the samples pass
through binary32: gray is copied to the three colours, and colours are weighed by their luminance.
-/

namespace Orthomosaic

namespace Depth

/-- The sample of full intensity. -/
def full : Depth → UInt32
  | byte => 255
  | word => 65535
  | real => Real32.one

/-- The integer of a real sample: 1 and above, and what is no number, give `greatest`. -/
def integerOfReal (greatest w : UInt32) : UInt32 :=
  if Float32.ofBits w < 1 then
    Real32.roundTo greatest (Real32.mul w (Real32.ofInteger greatest))
  else greatest

/-- A sample of one depth as one of another. -/
def recode (source target : Depth) (w : UInt32) : UInt32 :=
  match source, target with
  | byte, byte | word, word | real, real => w
  | byte, word => w * 257
  | word, byte => (w + 128) / 257
  | byte, real => Real32.div (Real32.ofInteger w) (Real32.ofInteger 255)
  | word, real => Real32.div (Real32.ofInteger w) (Real32.ofInteger 65535)
  | real, byte => integerOfReal 255 w
  | real, word => integerOfReal 65535 w

/-- The binary32 number nearest to the reciprocal of 255. -/
def byteUnit : UInt32 := 0x3B808081

/-- The binary32 number nearest to the reciprocal of 65535. -/
def wordUnit : UInt32 := 0x37800080

/-- A sample as a real one, multiplied by the unit of its depth. -/
def toReal (depth : Depth) (w : UInt32) : UInt32 :=
  match depth with
  | byte => Real32.mul (Real32.ofInteger w) byteUnit
  | word => Real32.mul (Real32.ofInteger w) wordUnit
  | real => w

/-- A real sample at a depth, rounded and held in range. -/
def ofReal (depth : Depth) (w : UInt32) : UInt32 :=
  match depth with
  | byte => Real32.roundTo 255 (Real32.mul w (Real32.ofInteger 255))
  | word => Real32.roundTo 65535 (Real32.mul w (Real32.ofInteger 65535))
  | real => w

end Depth

/-- The shares of red, green and blue in the luminance of a colour: 0.2126, 0.7152 and 0.0722. -/
def luminanceShares : List UInt32 := [0x3E59C05B, 0x3F3715FC, 0x3D93CF75]

/-- The luminance of a colour. -/
def luminance (colors : List UInt32) : UInt32 :=
  (colors.zip luminanceShares).foldl (fun sum (c, share) => Real32.add sum (Real32.mul c share)) 0

namespace PixelFormat

/-- A pixel of one format as one of another. -/
def convert (source target : PixelFormat) (p : Pixel) : Pixel :=
  let colors := source.channels.colors
  if source.channels.isGray = target.channels.isGray then
    let recode := Depth.recode source.depth target.depth
    let alpha :=
      if source.channels.hasAlpha then recode (p.getD colors 0) else target.depth.full
    (List.range colors).map (fun k => recode (p.getD k 0))
      ++ if target.channels.hasAlpha then [alpha] else []
  else
    let reals := p.map source.depth.toReal
    let alpha := if source.channels.hasAlpha then reals.getD colors 0 else Real32.one
    let converted :=
      if target.channels.isGray then [luminance (reals.take 3)]
      else List.replicate 3 (reals.getD 0 0)
    (converted ++ if target.channels.hasAlpha then [alpha] else []).map target.depth.ofReal

/-- A converted pixel has the samples of the new format, whatever the old one was. -/
theorem length_convert (source target : PixelFormat) (p : Pixel) :
    (source.convert target p).length = target.sampleCount := by
  cases source <;> cases target <;> rfl

end PixelFormat

namespace Raster

/-- A raster with every pixel in another format; in its own format it stays as it is. -/
def convert (r : Raster) (target : PixelFormat) : Raster :=
  if r.format = target then r
  else
    { width := r.width
      height := r.height
      format := target
      pixels := r.pixels.map (r.format.convert target)
      size_pixels := by rw [Array.size_map, r.size_pixels]
      length_pixel := by
        intro p hp
        obtain ⟨q, _, rfl⟩ := Array.mem_map.1 hp
        exact PixelFormat.length_convert _ _ _ }

@[simp] theorem width_convert (r : Raster) (f : PixelFormat) : (r.convert f).width = r.width := by
  unfold convert; split <;> rfl

@[simp] theorem height_convert (r : Raster) (f : PixelFormat) :
    (r.convert f).height = r.height := by
  unfold convert; split <;> rfl

@[simp] theorem format_convert (r : Raster) (f : PixelFormat) : (r.convert f).format = f := by
  unfold convert; split
  · assumption
  · rfl

end Raster

end Orthomosaic
