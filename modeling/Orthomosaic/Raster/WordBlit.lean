import Orthomosaic.Raster.Blit

/-!
# Painting in machine words

`Raster.blit` counts places with integers of any size and copies samples without asking for the formats. A
machine does neither: it holds offsets in 64 bits and places in 32, it reads and writes only places that
are there, and it has one copying loop for each format and one more, through colour and opacity in bytes, for
two formats that differ. `Raster.blitInWords?` is painting as such a machine does it, where a number that
leaves its word, or a place that is not there, stops everything.
-/

namespace Orthomosaic.Raster

/-! ## One axis -/

/-- What is copied along one axis: so many places of the source from its first one on, to the target from
where they start there. -/
structure Clip where
  start : Nat
  first : Nat
  count : Nat
deriving DecidableEq

/-- A number brought between 0 and a side. -/
def alongSide (side : Nat) (n : Int) : Int :=
  max 0 (min side n)

/-- What is copied along one axis of a source that starts at an offset, if every step stays within its word.
-/
def clip? (offset : Int) (source target : Nat) : Option Clip := do
  let start ← Word.unsigned32? (alongSide target offset)
  let finish ← Word.unsigned32? (alongSide target (Word.saturate64 (offset + source)))
  let count ← Word.unsigned32? ((finish : Int) - start)
  let first ← Word.unsigned32? (alongSide source (Word.saturate64 (-offset)))
  some ⟨start, first, count⟩

/-! ## Loops -/

/-- How the pixels of a source get into a destination: sample by sample, or each through colour and opacity
in bytes. -/
inductive CopyLoop where
  | samples (format : PixelFormat)
  | throughBytes
deriving DecidableEq

/-- The loop for the formats of a destination and of a source. -/
def copyLoop : PixelFormat → PixelFormat → CopyLoop
  | .gray8, .gray8 => .samples .gray8
  | .grayAlpha8, .grayAlpha8 => .samples .grayAlpha8
  | .rgb8, .rgb8 => .samples .rgb8
  | .rgba8, .rgba8 => .samples .rgba8
  | .gray16, .gray16 => .samples .gray16
  | .grayAlpha16, .grayAlpha16 => .samples .grayAlpha16
  | .rgb16, .rgb16 => .samples .rgb16
  | .rgba16, .rgba16 => .samples .rgba16
  | .rgb32, .rgb32 => .samples .rgb32
  | .rgba32, .rgba32 => .samples .rgba32
  | _, _ => .throughBytes

/-- The pixel that is written for one that is read. -/
def CopyLoop.passOn (loop : CopyLoop) (dest source : PixelFormat) (p : Pixel) : Pixel :=
  match loop with
  | samples _ => p
  | throughBytes => PixelFormat.rgba8.convert dest (source.convert .rgba8 p)

/-- One pixel read and written, if both places are there and their numbers are words. -/
def copyPixel? (dest source : Raster) (columns rows : Clip) (j i : Nat) (a : Array Pixel) :
    Option (Array Pixel) := do
  let sourceX ← Word.unsigned32? (columns.first + i : Nat)
  let sourceY ← Word.unsigned32? (rows.first + j : Nat)
  let destX ← Word.unsigned32? (columns.start + i : Nat)
  let destY ← Word.unsigned32? (rows.start + j : Nat)
  let p ← source.pixel? sourceX sourceY
  if destX < dest.width ∧ destY < dest.height then
    some (a.setIfInBounds (destY * dest.width + destX)
      ((copyLoop dest.format source.format).passOn dest.format source.format p))
  else none

/-- The pixels of a destination after a source has been painted onto it, unless a number leaves its word or a
place is not there. -/
def blitInWords? (dest source : Raster) (x y : Int) : Option (Array Pixel) := do
  let source := source.convert dest.format
  let columns ← clip? x source.width dest.width
  let rows ← clip? y source.height dest.height
  (List.range rows.count).foldlM
    (fun a j => (List.range columns.count).foldlM (fun a i => copyPixel? dest source columns rows j i a) a)
    dest.pixels

/-- A raster whose sides are words. -/
def FitsWords (r : Raster) : Prop :=
  r.width ≤ Word.unsigned32 ∧ r.height ≤ Word.unsigned32

end Orthomosaic.Raster
