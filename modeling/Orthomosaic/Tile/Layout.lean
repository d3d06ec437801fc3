import Orthomosaic.Path

/-!
# Where tiles are stored

Below a scenery root the tile of a bucket is a file in the bucket's directory, named for the bucket's
number. Two extensions are tried for it.
-/

namespace Orthomosaic

/-- The names that lead to tile files: the directory below each scenery root, and the extensions in the
order in which they are tried. -/
structure TileLayout where
  directory : String
  primaryExtension : String
  secondaryExtension : String
deriving DecidableEq, Repr

namespace TileLayout

/-- The layout used unless another one is set. -/
def standard : TileLayout :=
  { directory := "Orthophotos", primaryExtension := "png", secondaryExtension := "dds" }

/-- The file of a tile with some extension. -/
def file (layout : TileLayout) (root : Path) (bucketDirectory : String) (index : Int)
    (extension : String) : Path :=
  ((root.join ⟨layout.directory⟩).join ⟨bucketDirectory⟩).join ⟨s!"{index}.{extension}"⟩

/-- The files that may hold the tile of a bucket under a root, in the order in which they are
tried. -/
def candidates (layout : TileLayout) (root : Path) (bucketDirectory : String) (index : Int) :
    List Path :=
  [ layout.file root bucketDirectory index layout.primaryExtension,
    layout.file root bucketDirectory index layout.secondaryExtension ]

end TileLayout

end Orthomosaic
