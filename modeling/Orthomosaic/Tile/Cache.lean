import Orthomosaic.Bucket.Directory
import Orthomosaic.Orthophoto
import Orthomosaic.Tile.Layout
import Orthomosaic.Tile.Statistics

/-!
# The tile cache

A cache keeps the tile of each bucket that was looked up, or the fact that it has none. What is not
kept is searched for: under every scenery root in order, the first candidate file that decodes. The
cache sees the files through a function that says what stands at a path, so a lookup is a function of
the cache and the files.

Everything kept goes when the roots change. `TileCache.settle` lets go of what does not fit.
-/

namespace Orthomosaic

/-- What stands at a candidate path: no file, a file that is no image, or an image. -/
inductive Candidate where
  | absent
  | unreadable
  | tile (raster : Raster)

/-- What a search of candidate files found, and how many paths it looked at and files it decoded. -/
structure SearchResult where
  raster : Option Raster
  probes : Nat
  loads : Nat

/-- The search of candidate files, in order, for the first image. -/
def searchCandidates (look : Path → Candidate) : List Path → SearchResult
  | [] => ⟨none, 0, 0⟩
  | p :: rest =>
    match look p with
    | .tile raster => ⟨some raster, 1, 1⟩
    | .unreadable =>
      let r := searchCandidates look rest
      ⟨r.raster, r.probes + 1, r.loads + 1⟩
    | .absent =>
      let r := searchCandidates look rest
      ⟨r.raster, r.probes + 1, r.loads⟩

/-- The settings of a tile cache: how many bytes it may hold, whether it keeps in mind which buckets
have no tile, and where tiles are stored. -/
structure CacheSettings where
  maxBytes : Nat
  memoizeMissing : Bool
  layout : TileLayout
deriving DecidableEq, Repr

/-- The settings used unless others are given: a gigabyte, missing tiles kept in mind, and the
standard layout. -/
def CacheSettings.standard : CacheSettings :=
  { maxBytes := 1024 * 1024 * 1024, memoizeMissing := true, layout := .standard }

/-- What a cache keeps for a bucket: its tile, or that it has none. -/
abbrev CacheEntry := Option Image

/-- The bytes that an entry counts for: those of its tile, at least 1 and at most 32 bits hold. -/
def CacheEntry.weight (entry : CacheEntry) : Nat :=
  match entry with
  | none => 1
  | some image => max 1 (min image.raster.byteSize Word.unsigned32)

/-- A cache of tiles. The root searched first stands in front, and so does the newest of the entries,
which are held under the numbers of their buckets. -/
structure TileCache where
  settings : CacheSettings
  roots : List Path
  held : List (Int × CacheEntry)
  hits : Nat
  misses : Nat
  probes : Nat
  loads : Nat

namespace TileCache

/-- The cache that has done nothing yet. -/
def empty (settings : CacheSettings) : TileCache :=
  { settings := settings, roots := [], held := [], hits := 0, misses := 0, probes := 0, loads := 0 }

/-- What is kept for a bucket. -/
def entry? (cache : TileCache) (b : Bucket) : Option CacheEntry :=
  cache.held.lookup b.index

/-- Whether anything is kept for a bucket. -/
def contains (cache : TileCache) (b : Bucket) : Bool :=
  (cache.entry? b).isSome

/-- The files that may hold the tile of a bucket, in the order of the search. -/
def candidates (cache : TileCache) (b : Bucket) : List Path :=
  cache.roots.flatMap fun root =>
    cache.settings.layout.candidates root b.directory b.index

/-- The cache with an entry kept, unless it may hold nothing. -/
def hold (cache : TileCache) (b : Bucket) (entry : CacheEntry) : TileCache :=
  if cache.settings.maxBytes = 0 then cache
  else { cache with held := (b.index, entry) :: cache.held }

/-- The tile of a bucket and the cache after the lookup. -/
def getImage (look : Path → Candidate) (cache : TileCache) (b : Bucket) :
    Option Image × TileCache :=
  match cache.entry? b with
  | some entry => (entry, { cache with hits := cache.hits + 1 })
  | none =>
    let found := searchCandidates look (cache.candidates b)
    let cache :=
      { cache with
        misses := cache.misses + 1
        probes := cache.probes + found.probes
        loads := cache.loads + found.loads }
    let entry := found.raster.map fun raster => Image.mk raster (some cache.loads)
    (entry,
      if entry.isSome || cache.settings.memoizeMissing then cache.hold b entry else cache)

/-- The tiles of a list of buckets and the cache after looking them up in order. -/
def getImages (look : Path → Candidate) (cache : TileCache) :
    List Bucket → List (Option Image) × TileCache
  | [] => ([], cache)
  | b :: rest =>
    let (image, cache) := getImage look cache b
    let (images, cache) := getImages look cache rest
    (image :: images, cache)

/-- The cache with nothing kept. -/
def clear (cache : TileCache) : TileCache :=
  { cache with held := [] }

/-- The cache with a root in front of the others, and whether it was new. A root that is there
already changes nothing. -/
def addRoot (cache : TileCache) (root : Path) : Bool × TileCache :=
  if cache.roots.contains root then (false, cache)
  else (true, { cache with roots := root :: cache.roots, held := [] })

/-- The cache without roots and with nothing kept. -/
def clearRoots (cache : TileCache) : TileCache :=
  { cache with roots := [], held := [] }

/-- The cache without the entries of some buckets. -/
def retain (cache : TileCache) (keep : Int × CacheEntry → Bool) : TileCache :=
  { cache with held := cache.held.filter keep }

/-- The newest entries that together stay within a number of bytes. -/
def newestWithin (budget : Nat) : List (Int × CacheEntry) → List (Int × CacheEntry)
  | [] => []
  | (index, entry) :: rest =>
    if entry.weight ≤ budget then (index, entry) :: newestWithin (budget - entry.weight) rest
    else []

/-- The cache without the entries that are too heavy alone and, if the others are too heavy together,
without the oldest of them. -/
def settle (cache : TileCache) : TileCache :=
  let limit := cache.settings.maxBytes
  { cache with held := newestWithin limit (cache.held.filter fun e => e.2.weight ≤ limit) }

/-- The bytes of all that is kept. -/
def heldBytes (cache : TileCache) : Nat :=
  cache.held.foldr (fun e bytes => e.2.weight + bytes) 0

/-- What the cache has done and holds. -/
def statistics (cache : TileCache) : CacheStatistics :=
  { hits := cache.hits
    misses := cache.misses
    probes := cache.probes
    loads := cache.loads
    entries := cache.held.length
    bytes := cache.heldBytes }

end TileCache

end Orthomosaic
