import Orthomosaic.Proofs.Bucket.Canonical
import Orthomosaic.Tile.Cache

/-!
# A cache that does not show

Whatever a tile cache was asked before, and whatever it has let go of since, it answers a lookup
with what a search of the files finds under the roots it has now (`TileCache.getImage_transparent`).

The invariant is `TileCache.Sound`: everything kept, a tile or the lack of one, is what such a
search finds. A change of the roots drops what is kept, a root that is there already changes
nothing, and letting go of entries leaves the others as they are. A hit is right because buckets
that can be obtained do not share a number.
-/

namespace Orthomosaic

/-! ## Numbers of buckets -/

namespace Bucket

/-- The buckets that there is a way to: finding the bucket of a point, stepping from a bucket, and
reading a number. -/
inductive Obtained : Bucket → Prop where
  | containing (lon lat : Float) : Obtained (containing lon lat)
  | sibling (b : Bucket) (columns rows : ℤ) : Obtained (b.sibling Float columns rows)
  | ofIndex {i : ℤ} {b : Bucket} (h : ofIndex? i = some b) : Obtained b

/-- The degree of latitude of a bucket that can be obtained fits its eight bits. -/
theorem Obtained.lat_mem {b : Bucket} (h : b.Obtained) : 0 ≤ b.lat + 90 ∧ b.lat + 90 < 256 := by
  have hcanonical : ∀ b : Bucket, b.Canonical → 0 ≤ b.lat + 90 ∧ b.lat + 90 < 256 := by
    intro b hb
    have := hb.le_lat
    have := hb.lat_le
    omega
  cases h with
  | containing lon lat => exact hcanonical _ (canonical_containing lon lat)
  | sibling b columns rows => exact hcanonical _ (canonical_containing _ _)
  | @ofIndex i b h =>
    unfold ofIndex? at h
    obtain ⟨lon, -, hb⟩ := Option.bind_eq_some_iff.1 h
    obtain rfl := Option.some.inj hb
    dsimp only
    omega

/-- Buckets that can be obtained have different numbers. -/
theorem Obtained.eq_of_index_eq {b b' : Bucket} (h : b.Obtained) (h' : b'.Obtained)
    (hindex : b.index = b'.index) : b = b' := by
  obtain ⟨h0, h1⟩ := h.lat_mem
  obtain ⟨h0', h1'⟩ := h'.lat_mem
  obtain ⟨lon, lat, x, y⟩ := b
  obtain ⟨lon', lat', x', y'⟩ := b'
  have hx := x.isLt
  have hy := y.isLt
  have hx' := x'.isLt
  have hy' := y'.isLt
  unfold index at hindex
  dsimp only at *
  obtain rfl : lon = lon' := by omega
  obtain rfl : lat = lat' := by omega
  obtain rfl : x = x' := Fin.ext (by omega)
  obtain rfl : y = y' := Fin.ext (by omega)
  rfl

end Bucket

/-! ## Searches -/

/-- The image that stands at a path. -/
def Candidate.raster? : Candidate → Option Raster
  | .tile raster => some raster
  | .absent => none
  | .unreadable => none

/-- The tile of a bucket under a root: the one with the primary extension or, if that is none or no
image, the one with the secondary extension. -/
def tileUnder (look : Path → Candidate) (layout : TileLayout) (b : Bucket) (root : Path) :
    Option Raster :=
  (look (layout.file root b.directory b.index layout.primaryExtension)).raster?
    <|> (look (layout.file root b.directory b.index layout.secondaryExtension)).raster?

/-- The tile of a bucket under the first of some roots that has one. -/
def searchedTile (look : Path → Candidate) (layout : TileLayout) (roots : List Path) (b : Bucket) :
    Option Raster :=
  roots.findSome? (tileUnder look layout b)

/-- A search finds the first image. -/
theorem raster_searchCandidates (look : Path → Candidate) (paths : List Path) :
    (searchCandidates look paths).raster = paths.findSome? fun p => (look p).raster? := by
  induction paths with
  | nil => rfl
  | cons p rest ih =>
    rw [List.findSome?_cons]
    unfold searchCandidates
    cases look p with
    | tile raster => rfl
    | absent | unreadable => exact ih

/-- The files of a root are searched for the tile under it. -/
theorem findSome_candidates (look : Path → Candidate) (layout : TileLayout) (root : Path)
    (b : Bucket) :
    ((layout.candidates root b.directory b.index).findSome? fun p => (look p).raster?)
      = tileUnder look layout b root := by
  unfold TileLayout.candidates tileUnder
  rw [List.findSome?_cons, List.findSome?_cons, List.findSome?_nil]
  cases (look _).raster? with
  | some raster => rfl
  | none => cases (look _).raster? <;> rfl

namespace TileCache

/-- The files of a bucket are searched for its tile. -/
theorem raster_search (look : Path → Candidate) (cache : TileCache) (b : Bucket) :
    (searchCandidates look (cache.candidates b)).raster
      = searchedTile look cache.settings.layout cache.roots b := by
  rw [raster_searchCandidates]
  unfold candidates searchedTile
  induction cache.roots with
  | nil => rfl
  | cons root rest ih =>
    rw [List.flatMap_cons, List.findSome?_append, findSome_candidates, ih, List.findSome?_cons]
    cases tileUnder look cache.settings.layout b root <;> rfl

/-! ## Steps -/

/-- One thing that happens to a cache. Entries may go at any time, whichever they are. -/
inductive Step where
  | lookup (b : Bucket) (obtained : b.Obtained)
  | addRoot (root : Path)
  | clearRoots
  | clear
  | evict (keep : Int × CacheEntry → Bool)
  | settle

/-- The roots after a step: a new one comes in front, one that is there stays where it is. -/
def Step.roots (roots : List Path) : Step → List Path
  | .addRoot root => if roots.contains root then roots else root :: roots
  | .clearRoots => []
  | .lookup _ _ => roots
  | .clear => roots
  | .evict _ => roots
  | .settle => roots

/-- The roots after some steps from none. -/
def rootsAfter (steps : List Step) : List Path :=
  steps.foldl Step.roots []

/-- The cache after a step. -/
def apply (look : Path → Candidate) (cache : TileCache) : Step → TileCache
  | .lookup b _ => (cache.getImage look b).2
  | .addRoot root => (cache.addRoot root).2
  | .clearRoots => cache.clearRoots
  | .clear => cache.clear
  | .evict keep => cache.retain keep
  | .settle => cache.settle

/-- The cache after some steps. -/
def run (look : Path → Candidate) (cache : TileCache) (steps : List Step) : TileCache :=
  steps.foldl (apply look) cache

/-! ## The invariant -/

/-- A cache that keeps nothing but what a search finds under its roots. -/
structure Sound (look : Path → Candidate) (settings : CacheSettings) (roots : List Path)
    (cache : TileCache) : Prop where
  settings_eq : cache.settings = settings
  roots_eq : cache.roots = roots
  fresh : ∀ index entry, (index, entry) ∈ cache.held → ∃ b : Bucket, b.Obtained ∧ b.index = index
    ∧ entry.map Image.raster = searchedTile look settings.layout roots b

variable {look : Path → Candidate} {settings : CacheSettings} {roots : List Path}
  {cache cache' : TileCache}

/-- Nothing kept is nothing wrong. -/
theorem sound_of_held_nil (hsettings : cache.settings = settings) (hroots : cache.roots = roots)
    (hheld : cache.held = []) : Sound look settings roots cache := by
  refine ⟨hsettings, hroots, fun index entry h => ?_⟩
  rw [hheld] at h
  cases h

/-- A cache that keeps no more stays sound, whatever it counts. -/
theorem Sound.of_subset (h : Sound look settings roots cache)
    (hsettings : cache'.settings = cache.settings) (hroots : cache'.roots = cache.roots)
    (hheld : cache'.held ⊆ cache.held) : Sound look settings roots cache' :=
  ⟨hsettings.trans h.settings_eq, hroots.trans h.roots_eq,
    fun index entry hmem => h.fresh index entry (hheld hmem)⟩

/-- Keeping what a search found. -/
theorem Sound.hold (h : Sound look settings roots cache) {b : Bucket} (hb : b.Obtained)
    {entry : CacheEntry}
    (hentry : entry.map Image.raster = searchedTile look settings.layout roots b) :
    Sound look settings roots (cache.hold b entry) := by
  unfold TileCache.hold
  split
  · exact h
  · refine ⟨h.settings_eq, h.roots_eq, fun index entry' hmem => ?_⟩
    rcases List.mem_cons.1 hmem with heq | hmem
    · obtain ⟨rfl, rfl⟩ := Prod.mk.inj heq
      exact ⟨b, hb, rfl, hentry⟩
    · exact h.fresh index entry' hmem

/-- What is kept under a number is in the list. -/
theorem mem_of_lookup {index : ℤ} {entry : CacheEntry} {held : List (ℤ × CacheEntry)}
    (h : held.lookup index = some entry) : (index, entry) ∈ held := by
  induction held with
  | nil => cases h
  | cons first rest ih =>
    obtain ⟨index', entry'⟩ := first
    rw [List.lookup_cons] at h
    split at h
    · next heq =>
      rw [beq_iff_eq.1 heq, Option.some.inj h]
      exact List.mem_cons_self
    · exact List.mem_cons_of_mem _ (ih h)

/-- A lookup gives what a search finds, and keeps nothing else. -/
theorem Sound.getImage (h : Sound look settings roots cache) {b : Bucket} (hb : b.Obtained) :
    (cache.getImage look b).1.map Image.raster = searchedTile look settings.layout roots b
      ∧ Sound look settings roots (cache.getImage look b).2 := by
  have hsearch := raster_search look cache b
  rw [h.settings_eq, h.roots_eq] at hsearch
  unfold TileCache.getImage
  split
  · next entry hentry =>
    -- the entry is that of a bucket with the same number, which is the same bucket
    obtain ⟨b', hb', hindex, hfresh⟩ := h.fresh _ _ (mem_of_lookup hentry)
    rw [hb'.eq_of_index_eq hb hindex] at hfresh
    exact ⟨hfresh, h.of_subset rfl rfl (List.Subset.refl _)⟩
  · have hfound : ∀ load : Option Nat,
        ((searchCandidates look (cache.candidates b)).raster.map fun raster =>
          Image.mk raster load).map Image.raster = searchedTile look settings.layout roots b := by
      intro load
      rw [Option.map_map, ← hsearch]
      exact congrFun Option.map_id _
    refine ⟨hfound _, ?_⟩
    dsimp only
    split
    · refine Sound.hold ?_ hb (hfound _)
      exact h.of_subset rfl rfl (List.Subset.refl _)
    · exact h.of_subset rfl rfl (List.Subset.refl _)

/-- A new root drops all entries, and one that is there keeps them. -/
theorem Sound.addRoot (h : Sound look settings roots cache) (root : Path) :
    Sound look settings (if roots.contains root then roots else root :: roots)
      (cache.addRoot root).2 := by
  unfold TileCache.addRoot
  rw [h.roots_eq]
  split
  · exact h
  · exact sound_of_held_nil h.settings_eq rfl rfl

/-- The newest entries are entries. -/
theorem newestWithin_subset (budget : ℕ) (held : List (ℤ × CacheEntry)) :
    newestWithin budget held ⊆ held := by
  induction held generalizing budget with
  | nil => exact List.Subset.refl _
  | cons first rest ih =>
    unfold newestWithin
    split
    · exact List.cons_subset_cons _ (ih _)
    · exact List.nil_subset _

/-- Every step keeps a cache sound. -/
theorem Sound.apply (h : Sound look settings roots cache) (step : Step) :
    Sound look settings (step.roots roots) (cache.apply look step) := by
  cases step with
  | lookup b obtained => exact (h.getImage obtained).2
  | addRoot root => exact h.addRoot root
  | clearRoots => exact sound_of_held_nil h.settings_eq rfl rfl
  | clear => exact sound_of_held_nil h.settings_eq h.roots_eq rfl
  | evict keep => exact h.of_subset rfl rfl List.filter_sublist.subset
  | settle =>
    exact h.of_subset rfl rfl
      (List.Subset.trans (newestWithin_subset _ _) List.filter_sublist.subset)

/-- Any number of steps keep a cache sound. -/
theorem Sound.run (h : Sound look settings roots cache) (steps : List Step) :
    Sound look settings (steps.foldl Step.roots roots) (cache.run look steps) := by
  induction steps generalizing roots cache with
  | nil => exact h
  | cons step rest ih => exact ih (h.apply step)

/-- A lookup gives the tile that a search finds under the roots there are: under the first one that
has a tile, the one with the primary extension before the other. It gives none exactly when no
candidate file has an image. What happened to the cache before, beyond the changes of roots, makes
no difference, and neither do its capacity and whether it keeps missing tiles in mind. -/
theorem getImage_transparent (look : Path → Candidate) (settings : CacheSettings)
    (steps : List Step) {b : Bucket} (hb : b.Obtained) :
    ((((empty settings).run look steps).getImage look b).1.map Image.raster
        = searchedTile look settings.layout (rootsAfter steps) b)
      ∧ ((((empty settings).run look steps).getImage look b).1 = none
        ↔ ∀ root ∈ rootsAfter steps,
          ∀ p ∈ settings.layout.candidates root b.directory b.index, (look p).raster? = none) := by
  have hsound : Sound look settings [] (empty settings) := sound_of_held_nil rfl rfl rfl
  have hfound := ((hsound.run steps).getImage hb).1
  refine ⟨hfound, ?_⟩
  rw [← Option.map_eq_none_iff, hfound]
  unfold searchedTile
  rw [List.findSome?_eq_none_iff]
  refine forall₂_congr fun root _ => ?_
  rw [← findSome_candidates, List.findSome?_eq_none_iff]

/-- A lookup without any root finds nothing, and that is kept in mind; under a root that is added
then the tile is found all the same. -/
theorem getImage_transparent_after_miss :
    (((empty .standard).run (fun _ => .tile (.zero 1 1 .gray8))
        [.lookup (.containing (10.1 : Float) 1.1) (.containing 10.1 1.1),
          .addRoot ⟨"scenery"⟩]).getImage (fun _ => .tile (.zero 1 1 .gray8))
        (.containing (10.1 : Float) 1.1)).1.map Image.raster
      = some (.zero 1 1 .gray8) :=
  (getImage_transparent _ _ _ (.containing 10.1 1.1)).1.trans rfl

end TileCache

end Orthomosaic
