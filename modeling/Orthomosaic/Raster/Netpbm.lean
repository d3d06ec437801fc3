import Orthomosaic.Raster.Basic
import Orthomosaic.Raster.Netpbm.Header
import Orthomosaic.Raster.Real

/-!
# Netpbm images

Maps of every kind are read. Where the greatest sample of a map is not that of the raster, the
samples are scaled. A raster of integers is written as an arbitrary map, unless it has gray and
opacity in 16 bits.
-/

namespace Orthomosaic.Netpbm

/-! ## Reading -/

/-- The samples of a row of bits, eight to a byte, the highest first; a set bit is black. -/
def bitRow (width : Nat) (row : List UInt8) : List UInt32 :=
  (row.flatMap fun b =>
    ([7, 6, 5, 4, 3, 2, 1, 0] : List UInt8).map fun k =>
      if (b >>> k) &&& 1 = 1 then (0 : UInt32) else 255).take width

/-- The samples of some rows of bits, each from a byte of its own. -/
def bitRows (width : Nat) : (height : Nat) → List UInt8 → List UInt32
  | 0, _ => []
  | height + 1, bytes =>
    let length := (width + 7) / 8
    bitRow width (bytes.take length) ++ bitRows width height (bytes.drop length)

/-- The samples of a bitmap in bytes. One without columns has none, however many its rows. -/
def bitSamples? (width height : Nat) (bytes : List UInt8) : Option (List UInt32) :=
  if width = 0 then some []
  else if bytes.length < height * ((width + 7) / 8) then none
  else some (bitRows width height bytes)

/-- Some samples of a bitmap in digits. -/
def digitSamples? : (count : Nat) → List UInt8 → Option (List UInt32)
  | 0, _ => some []
  | _ + 1, [] => none
  | count + 1, b :: rest =>
    if isSpace b then digitSamples? (count + 1) rest
    else if b = 0x30 then (digitSamples? count rest).map (255 :: ·)
    else if b = 0x31 then (digitSamples? count rest).map (0 :: ·)
    else none

/-- Some samples written as numbers of at most `greatest`. -/
def numberSamples? (greatest : Nat) : (count : Nat) → List UInt8 → Option (List UInt32)
  | 0, _ => some []
  | count + 1, bytes => do
    let bytes := bytes.dropWhile isSpace
    let n ← unsigned? greatest (bytes.takeWhile (!isSpace ·))
    some (n.toUInt32 :: (← numberSamples? greatest count ((bytes.dropWhile (!isSpace ·)).drop 1)))

/-- The samples that pairs of bytes make, the higher one first. -/
def pairSamples : List UInt8 → List UInt32
  | a :: b :: rest => (a.toUInt32 * 256 + b.toUInt32) :: pairSamples rest
  | _ => []

/-- Some samples written as bytes. -/
def byteSamples? (depth : Depth) (count : Nat) (bytes : List UInt8) : Option (List UInt32) :=
  let taken := bytes.take (count * depth.bytes)
  if taken.length < count * depth.bytes then none
  else if depth = .byte then some (taken.map UInt8.toUInt32)
  else some (pairSamples taken)

/-- A sample scaled from one greatest sample to another, in binary32, and held in range. -/
def scaled (greatest full : UInt32) (w : UInt32) : UInt32 :=
  let factor := Real32.div (Real32.ofInteger full) (Real32.ofInteger greatest)
  Real32.roundTo full (Real32.mul (Real32.ofInteger w) factor)

namespace Header

/-- The sample of full intensity in the raster. -/
def full (h : Header) : Nat :=
  if h.format.depth = .byte then 255 else 65535

/-- The samples of a map as they are written. -/
def samples? (h : Header) (bytes : List UInt8) : Option (List UInt32) :=
  let count := h.width * h.height * h.format.sampleCount
  match h.coding with
  | .bits => bitSamples? h.width h.height bytes
  | .bitDigits => digitSamples? count bytes
  | .numbers => numberSamples? h.full count bytes
  | .bytes => byteSamples? h.format.depth count bytes
  | .flags => (byteSamples? .byte count bytes).filter (·.all (· ≤ 1))

/-- The raster of a map, given what follows its header. -/
def raster? (h : Header) (bytes : List UInt8) : Option Raster := do
  let samples ← h.samples? bytes
  let samples :=
    if h.greatest = h.full then samples
    else samples.map (scaled h.greatest.toUInt32 h.full.toUInt32)
  Raster.ofBytes? h.width h.height h.format
    (samples.flatMap (Raster.sampleBytes h.format.depth))

end Header

/-- The raster of an image. -/
def decode? (bytes : List UInt8) : Option Raster := do
  let (header, samples) ← readHeader? bytes
  header.raster? samples

/-! ## Writing -/

/-- The header of an arbitrary map. -/
def headerText (r : Raster) (greatest : Nat) : String :=
  let channels := r.format.channels
  s!"P7\nWIDTH {r.width}\nHEIGHT {r.height}\nDEPTH {channels.count}\nMAXVAL {greatest}\n"
    ++ s!"TUPLTYPE {tupleName channels}\nENDHDR\n"

/-- The image of a raster whose samples are integers. -/
def encode? (r : Raster) : Option (List UInt8) :=
  if r.format = .grayAlpha16 then none
  else
    match r.format.depth with
    | .byte => some ((headerText r 255).toUTF8.toList ++ r.bigEndianBytes)
    | .word => some ((headerText r 65535).toUTF8.toList ++ r.bigEndianBytes)
    | .real => none

end Orthomosaic.Netpbm
