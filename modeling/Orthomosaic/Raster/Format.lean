/-!
# Pixel formats

A pixel is a list of samples, each kept as the low bits of a 32-bit word: an integer of 8 or 16 bits,
or the bit pattern of a binary32 number. A format says which channels a pixel has and how their
samples are kept; there are ten of them.
-/

namespace Orthomosaic

/-- How a sample is kept: as an integer up to 255 or up to 65535, or as a binary32 number, of which 0 to
1 is shown. -/
inductive Depth where
  | byte
  | word
  | real
deriving DecidableEq, Repr

/-- The bytes of a sample. -/
def Depth.bytes : Depth → Nat
  | byte => 1
  | word => 2
  | real => 4

/-- The channels of a pixel, in their order: gray or red, green and blue, then opacity. -/
inductive Channels where
  | gray
  | grayAlpha
  | rgb
  | rgba
deriving DecidableEq, Repr

namespace Channels

/-- Whether the colour is a single gray. -/
def isGray : Channels → Bool
  | gray | grayAlpha => true
  | rgb | rgba => false

/-- Whether there is an opacity. -/
def hasAlpha : Channels → Bool
  | grayAlpha | rgba => true
  | gray | rgb => false

/-- The number of channels that are not opacity. -/
def colors (c : Channels) : Nat :=
  if c.isGray then 1 else 3

/-- The number of channels. -/
def count (c : Channels) : Nat :=
  c.colors + if c.hasAlpha then 1 else 0

end Channels

/-- The formats that a raster may have. -/
inductive PixelFormat where
  | gray8
  | grayAlpha8
  | rgb8
  | rgba8
  | gray16
  | grayAlpha16
  | rgb16
  | rgba16
  | rgb32
  | rgba32
deriving DecidableEq, Repr

namespace PixelFormat

/-- The channels of a format. -/
def channels : PixelFormat → Channels
  | gray8 | gray16 => .gray
  | grayAlpha8 | grayAlpha16 => .grayAlpha
  | rgb8 | rgb16 | rgb32 => .rgb
  | rgba8 | rgba16 | rgba32 => .rgba

/-- How a format keeps its samples. -/
def depth : PixelFormat → Depth
  | gray8 | grayAlpha8 | rgb8 | rgba8 => .byte
  | gray16 | grayAlpha16 | rgb16 | rgba16 => .word
  | rgb32 | rgba32 => .real

/-- The number of samples of a pixel. -/
def sampleCount (f : PixelFormat) : Nat :=
  f.channels.count

/-- The bytes of a pixel. -/
def pixelBytes (f : PixelFormat) : Nat :=
  f.sampleCount * f.depth.bytes

end PixelFormat

/-- The samples of a pixel, in the order of its channels. -/
abbrev Pixel := List UInt32

end Orthomosaic
