import Orthomosaic.Bucket.Index
import Orthomosaic.Decimal.Digits

/-!
# Bucket directories

The files of a bucket stand in a directory named for its degree, inside one named for the cell of
ten degrees around it: `w130n30/w123n37` holds the buckets from 123 degrees west and 37 north.
-/

namespace Orthomosaic.Bucket

/-- The multiple of ten at or below a whole degree. -/
def tenDegreeCell (degree : Int) : Int :=
  degree / 10 * 10

/-- A degree as a letter for its side of zero and at least `width` digits. -/
def degreeName (positive negative : Char) (width : Nat) (degree : Int) : List Char :=
  (if 0 ≤ degree then positive else negative) :: Decimal.padded width degree.natAbs

/-- A longitude and a latitude as one directory name. -/
def cornerName (lon lat : Int) : String :=
  String.ofList (degreeName 'e' 'w' 3 lon ++ degreeName 'n' 's' 2 lat)

/-- The directory of a bucket. -/
def directory (b : Bucket) : String :=
  cornerName (tenDegreeCell b.lon) (tenDegreeCell b.lat) ++ "/" ++ cornerName b.lon b.lat

/-- The directory of a bucket whose cell of ten degrees, signs taken off, fits into 32 bits. -/
def directory? (b : Bucket) : Option String :=
  if Word.fits32 (tenDegreeCell b.lon) && Word.fits32 (-tenDegreeCell b.lon)
      && Word.fits32 (-b.lon) then
    some b.directory
  else none

/-- A bucket as messages show it: its directory and its number. -/
def text (b : Bucket) : String :=
  b.directory ++ "/" ++ toString b.index

end Orthomosaic.Bucket
