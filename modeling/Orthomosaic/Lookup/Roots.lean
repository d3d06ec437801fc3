import Orthomosaic.FileTree
import Orthomosaic.Tile.Cache

/-!
# Roots of a cache

A cache is started on a list of scenery roots, and roots are added to it later. Every one of them
must be a directory. What a cache finds at a path is told by the files and a decoder.
-/

namespace Orthomosaic

/-- What stands at a path: whether a file is there, and whether the decoder makes an image of it. -/
def FileTree.candidate {β : Type} (decode : Path → β → Option Raster) (tree : FileTree β)
    (p : Path) : Candidate :=
  match tree.file? p with
  | none => .absent
  | some content =>
    match decode p content with
    | some raster => .tile raster
    | none => .unreadable

/-- A scenery root that is no directory. -/
structure MissingRoot where
  path : Path

/-- The wording of the error. -/
def MissingRoot.message (e : MissingRoot) : String :=
  s!"Scenery path not found: {e.path.text}"

namespace TileCache

/-- The cache that has done nothing yet but knows some roots. They are added from the last to the
first, since each goes in front of those before it. -/
def start (isDirectory : Path → Bool) (settings : CacheSettings) (roots : List Path) :
    Except MissingRoot TileCache :=
  match roots.find? (!isDirectory ·) with
  | some path => .error ⟨path⟩
  | none => .ok (roots.reverse.foldl (fun cache root => (cache.addRoot root).2) (empty settings))

/-- The cache with a root in front of the others, and whether it was new, if it is a directory. -/
def addDirectory (isDirectory : Path → Bool) (cache : TileCache) (root : Path) :
    Except MissingRoot (Bool × TileCache) :=
  if isDirectory root then .ok (cache.addRoot root) else .error ⟨root⟩

end TileCache

end Orthomosaic
