import Orthomosaic.Raster.Basic

/-!
# Farbfeld images

A farbfeld file holds a raster of colours and opacities in 16 bits, everything with its highest byte
first.
-/

namespace Orthomosaic.Farbfeld

/-- The bytes that every file starts with. -/
def magic : List UInt8 := "farbfeld".toUTF8.toList

/-- The number of four bytes, the highest first. -/
def number (bytes : List UInt8) : Nat :=
  bytes.foldl (fun n b => n * 256 + b.toNat) 0

/-- The four bytes of a number, the highest first. -/
def numberBytes (n : Nat) : List UInt8 :=
  [16777216, 65536, 256, 1].map fun unit => (n / unit).toUInt8

/-- Bytes with those of each pair exchanged. -/
def exchanged : List UInt8 → List UInt8
  | a :: b :: rest => b :: a :: exchanged rest
  | rest => rest

/-- The raster of a file. -/
def decode? (bytes : List UInt8) : Option Raster :=
  let head := bytes.take 16
  let width := number ((head.drop 8).take 4)
  let height := number (head.drop 12)
  if head.take 8 = magic ∧ head.length = 16 then
    Raster.ofBytes? width height .rgba16
      (exchanged ((bytes.drop 16).take (width * height * PixelFormat.rgba16.pixelBytes)))
  else none

/-- The file of a raster of colours and opacities in 16 bits. -/
def encode? (r : Raster) : Option (List UInt8) :=
  if r.format = .rgba16 then
    some (magic ++ numberBytes r.width ++ numberBytes r.height ++ r.bigEndianBytes)
  else none

end Orthomosaic.Farbfeld
