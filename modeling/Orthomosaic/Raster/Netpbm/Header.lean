import Orthomosaic.Decimal.Reader
import Orthomosaic.Raster.Format
import Orthomosaic.Text.Encoding
import Orthomosaic.Word

/-!
# Headers of netpbm images

A netpbm image starts with a letter and a digit that tells its kind. Behind it a plain map has the
numbers of its columns and rows and, unless it is a bitmap, its greatest sample. An arbitrary map
names these and its channels line by line.
-/

namespace Orthomosaic.Netpbm

/-- How the samples of a map are written: as bits or digits with 1 for black, as bytes with 1 for white,
as bytes or pairs of them with the higher one first, or as numbers with blanks between them. -/
inductive Coding where
  | bits
  | bitDigits
  | flags
  | bytes
  | numbers
deriving DecidableEq, Repr

/-- What a header says; `greatest` is the sample of full intensity. -/
structure Header where
  width : Nat
  height : Nat
  format : PixelFormat
  greatest : Nat
  coding : Coding

/-- The characters of bytes, one for each. -/
def characters (bytes : List UInt8) : List Char :=
  bytes.map fun b => Char.ofNat b.toNat

/-- Whether a byte separates words. -/
def isSpace (b : UInt8) : Bool :=
  b == 0x20 || (0x09 ≤ b && b ≤ 0x0D)

/-- A number of at most `greatest` in decimal digits without a sign. -/
def unsigned? (greatest : Nat) (word : List UInt8) : Option Nat :=
  if word.head? = some 0x2B then none else Decimal.readNat? greatest (characters word)

/-- The format of some channels whose greatest sample is given. -/
def formatFor? (channels : Channels) (greatest : Nat) : Option PixelFormat :=
  if greatest = 0 ∨ 65535 < greatest then none
  else
    let inBytes := decide (greatest ≤ 255)
    some <|
      match channels with
      | .gray => if inBytes then .gray8 else .gray16
      | .grayAlpha => if inBytes then .grayAlpha8 else .grayAlpha16
      | .rgb => if inBytes then .rgb8 else .rgb16
      | .rgba => if inBytes then .rgba8 else .rgba16

/-! ## Plain maps -/

/-- The next word of a header and what follows the space behind it; `word` is what has been read of
it, in reverse. A number sign starts a comment, which runs to the end of its line and does not end
a word. -/
def readWord (inComment : Bool) (word : List UInt8) : List UInt8 → List UInt8 × List UInt8
  | [] => (word.reverse, [])
  | b :: rest =>
    if inComment then readWord (b != 0x0A && b != 0x0D) word rest
    else if b == 0x23 then readWord true word rest
    else if !isSpace b then readWord false (b :: word) rest
    else if word.isEmpty then readWord false word rest
    else (word.reverse, rest)

/-- The next number of a header and what follows the space behind it. -/
def readNumber? (bytes : List UInt8) : Option (Nat × List UInt8) :=
  let (word, rest) := readWord false [] bytes
  (unsigned? Word.unsigned32 word).map (·, rest)

/-- The header of a bitmap, and its samples. -/
def readBitmap? (coding : Coding) (bytes : List UInt8) : Option (Header × List UInt8) := do
  let (width, bytes) ← readNumber? bytes
  let (height, bytes) ← readNumber? bytes
  some (⟨width, height, .gray8, 255, coding⟩, bytes)

/-- The header of a map of gray or of colour, and its samples. -/
def readMap? (channels : Channels) (coding : Coding) (bytes : List UInt8) :
    Option (Header × List UInt8) := do
  let (width, bytes) ← readNumber? bytes
  let (height, bytes) ← readNumber? bytes
  let (greatest, bytes) ← readNumber? bytes
  some (⟨width, height, ← formatFor? channels greatest, greatest, coding⟩, bytes)

/-! ## Arbitrary maps -/

/-- The name of some channels in an arbitrary map. -/
def tupleName : Channels → String
  | .gray => "GRAYSCALE"
  | .grayAlpha => "GRAYSCALE_ALPHA"
  | .rgb => "RGB"
  | .rgba => "RGB_ALPHA"

/-- The lines of an arbitrary map that have been read; `tuple` has the words that name the channels. -/
structure Fields where
  width : Option Nat
  height : Option Nat
  depth : Option Nat
  greatest : Option Nat
  tuple : List (List UInt8)

/-- What bytes are without the space at their ends. -/
def trimSpace (bytes : List UInt8) : List UInt8 :=
  ((bytes.dropWhile isSpace).reverse.dropWhile isSpace).reverse

/-- The word that starts a line and what follows it. A line that starts with space has no word. -/
def splitLine (line : List UInt8) : String × List UInt8 :=
  (String.ofList (characters (line.takeWhile (!isSpace ·))),
    trimSpace (line.dropWhile (!isSpace ·)))

/-- A field with the number of a line, which may have a plus sign, unless it has one already. -/
def numbered? (held : Option Nat) (value : List UInt8) : Option (Option Nat) :=
  if held.isSome then none
  else (Decimal.readNat? Word.unsigned32 (characters value)).map some

/-- Whether a line may stand in a header: it is text, and outside of comments plain text. -/
def isHeaderLine (line : List UInt8) : Bool :=
  (Text.decode? line).isSome && (line.head? == some 0x23 || line.all (· < 0x80))

/-- The fields with those of one more line. A line that starts with a number sign says nothing. -/
def Fields.withLine? (f : Fields) (line : List UInt8) : Option Fields :=
  if !isHeaderLine line then none
  else if line.head? = some 0x23 then some f
  else do
    let (name, value) := splitLine line
    match name with
    | "WIDTH" => some { f with width := ← numbered? f.width value }
    | "HEIGHT" => some { f with height := ← numbered? f.height value }
    | "DEPTH" => some { f with depth := ← numbered? f.depth value }
    | "MAXVAL" => some { f with greatest := ← numbered? f.greatest value }
    | "TUPLTYPE" => some { f with tuple := f.tuple ++ [value] }
    | _ => none

/-- Whether a line ends a header. -/
def isLastLine (line : List UInt8) : Bool :=
  isHeaderLine line && (splitLine line).1 == "ENDHDR"

/-- The fields up to the line that ends them, and what follows it; `line` is what has been read of a
line, in reverse. -/
def readFields? (f : Fields) (line : List UInt8) : List UInt8 → Option (Fields × List UInt8)
  | [] => if isLastLine line.reverse then some (f, []) else none
  | b :: rest =>
    if b != 0x0A then readFields? f (b :: line) rest
    else if isLastLine line.reverse then some (f, rest)
    else do readFields? (← f.withLine? line.reverse) [] rest

/-- The channels of a name. -/
def channelsOf? (name : String) : Option Channels :=
  [.gray, .grayAlpha, .rgb, .rgba].find? (tupleName · == name)

/-- The format and the coding of an arbitrary map that names its channels. One that names gray but
counts no channels has one in 16 bits. -/
def namedFormat? (name : String) (depth greatest : Nat) : Option (PixelFormat × Coding) :=
  if name == "BLACKANDWHITE" then
    if depth = 1 ∧ greatest = 1 then some (.gray8, .flags) else none
  else if name == "BLACKANDWHITE_ALPHA" then
    if depth = 2 ∧ greatest = 1 then some (.grayAlpha8, .flags) else none
  else do
    let channels ← channelsOf? name
    let format ← formatFor? channels greatest
    if depth = channels.count then some (format, .bytes)
    else if channels = .gray ∧ depth = 0 then some (.gray16, .bytes)
    else none

/-- The format of an arbitrary map that does not name its channels. They are kept in bytes. -/
def unnamedFormat? (depth greatest : Nat) : Option PixelFormat :=
  if greatest = 0 then none
  else [PixelFormat.gray8, .grayAlpha8, .rgb8, .rgba8].find? (·.sampleCount = depth)

/-- The header of an arbitrary map, and its samples. -/
def readArbitrary? (bytes : List UInt8) : Option (Header × List UInt8) := do
  let (f, samples) ← readFields? ⟨none, none, none, none, []⟩ [] bytes
  let (greatest, depth) := (← f.greatest, ← f.depth)
  let name := " ".intercalate (f.tuple.map fun word => String.ofList (characters word))
  let (format, coding) ←
    if f.tuple.isEmpty then (unnamedFormat? depth greatest).map (·, Coding.bytes)
    else namedFormat? name depth greatest
  some (⟨← f.width, ← f.height, format, greatest, coding⟩, samples)

/-- The header of an image, and its samples. -/
def readHeader? : List UInt8 → Option (Header × List UInt8)
  | 0x50 :: 0x31 :: rest => readBitmap? .bitDigits rest
  | 0x50 :: 0x32 :: rest => readMap? .gray .numbers rest
  | 0x50 :: 0x33 :: rest => readMap? .rgb .numbers rest
  | 0x50 :: 0x34 :: rest => readBitmap? .bits rest
  | 0x50 :: 0x35 :: rest => readMap? .gray .bytes rest
  | 0x50 :: 0x36 :: rest => readMap? .rgb .bytes rest
  | 0x50 :: 0x37 :: 0x0A :: rest => readArbitrary? rest
  | _ => none

end Orthomosaic.Netpbm
