import Mathlib.Algebra.Order.BigOperators.Group.Finset
import Mathlib.Data.List.Induction
import Orthomosaic.Proofs.Tile.Remembered

/-!
# The accounts of a cache

As long as its capacity is not exceeded, a tile cache holds an entry for exactly the buckets that it
remembers. From this every number that it reports follows (`TileCache.run_accounts`): which lookups
are hits, what a miss adds to the files looked at and decoded, how many entries are held and how many
bytes they count for, which for a single one is no more than 32 bits hold.

The invariant is `TileCache.Keeping`: the entries held are, in order, what a search finds for the
buckets of a list, and the list has the remembered buckets, each once.
-/

namespace Orthomosaic

/-! ## The work of a search -/

/-- Whether there is a file, be it an image or not. -/
def Candidate.isFile : Candidate → Bool
  | .absent => false
  | .unreadable => true
  | .tile _ => true

/-- The files that a search looks at: those up to the first image, or all of them if there is none. -/
def lookedAt (look : Path → Candidate) (paths : List Path) : List Path :=
  paths.take (paths.findIdx (fun p => (look p).raster?.isSome) + 1)

/-- Without an image all files are looked at. -/
theorem lookedAt_of_none {look : Path → Candidate} {paths : List Path}
    (h : ∀ p ∈ paths, (look p).raster? = none) : lookedAt look paths = paths := by
  unfold lookedAt
  rw [List.findIdx_eq_length.2 fun p hp => by rw [h p hp]; rfl]
  exact List.take_of_length_le (Nat.le_succ _)

theorem lookedAt_cons_of_some {look : Path → Candidate} {p : Path} {rest : List Path}
    {raster : Raster} (h : look p = .tile raster) : lookedAt look (p :: rest) = [p] := by
  simp [lookedAt, List.findIdx_cons, h, Candidate.raster?]

theorem lookedAt_cons_of_none {look : Path → Candidate} {p : Path} {rest : List Path}
    (h : (look p).raster? = none) : lookedAt look (p :: rest) = p :: lookedAt look rest := by
  simp [lookedAt, List.findIdx_cons, h]

/-- A search counts the paths that it looks at and the files among them. -/
theorem searchCandidates_counts (look : Path → Candidate) (paths : List Path) :
    (searchCandidates look paths).probes = (lookedAt look paths).length
      ∧ (searchCandidates look paths).loads
        = (lookedAt look paths).countP fun p => (look p).isFile := by
  induction paths with
  | nil => exact ⟨rfl, rfl⟩
  | cons p rest ih =>
    obtain ⟨hprobes, hloads⟩ := ih
    unfold searchCandidates
    cases h : look p with
    | tile raster =>
      rw [lookedAt_cons_of_some h]
      simp [h, Candidate.isFile]
    | absent | unreadable =>
      rw [lookedAt_cons_of_none (by rw [h]; rfl)]
      simp [hprobes, hloads, h, Candidate.isFile]

/-- Every root has two candidate files. -/
theorem TileCache.length_candidates (cache : TileCache) (b : Bucket) :
    (cache.candidates b).length = 2 * cache.roots.length := by
  unfold TileCache.candidates
  induction cache.roots with
  | nil => rfl
  | cons root rest ih =>
    rw [List.flatMap_cons, List.length_append, ih, List.length_cons]
    simp [TileLayout.candidates]
    omega

namespace TileCache

/-! ## What is held -/

/-- The entries held are those of the buckets of a list: for each of them, what a search finds. -/
structure Keeping (look : Path → Candidate) (settings : CacheSettings) (roots : List Path)
    (buckets : List Bucket) (cache : TileCache) : Prop where
  settings_eq : cache.settings = settings
  roots_eq : cache.roots = roots
  nodup : buckets.Nodup
  obtained : ∀ b ∈ buckets, b.Obtained
  held_eq : cache.held.map (Prod.map id (Option.map Image.raster))
    = buckets.map fun b => (b.index, searchedTile look settings.layout roots b)

variable {look : Path → Candidate} {settings : CacheSettings} {roots : List Path}
  {steps : List Step} {step : Step} {b : Bucket} {cache : TileCache} {buckets : List Bucket}

/-- What is kept under the numbers of entries, seen in a list that agrees with them. -/
theorem isSome_lookup_eq {held : List (ℤ × CacheEntry)} {f : Bucket → Option Raster}
    (h : held.map (Prod.map id (Option.map Image.raster)) = buckets.map fun b => (b.index, f b))
    (index : ℤ) : (held.lookup index).isSome = true ↔ ∃ b ∈ buckets, b.index = index := by
  induction held generalizing buckets with
  | nil =>
    obtain rfl := List.map_eq_nil_iff.1 h.symm
    simp
  | cons first rest ih =>
    obtain ⟨b, buckets, rfl, hfirst, hrest⟩ := List.map_eq_cons_iff.1 h.symm
    obtain ⟨number, entry⟩ := first
    obtain rfl : b.index = number := congrArg Prod.fst hfirst
    rw [List.lookup_cons]
    by_cases hindex : index = b.index
    · simp [hindex]
    · simp only [beq_false_of_ne hindex, ih hrest.symm, List.exists_mem_cons_iff,
        Ne.symm hindex, false_or]

/-- A bucket is held exactly if it is one of the list. -/
theorem Keeping.isSome_entry? (h : Keeping look settings roots buckets cache) (hb : b.Obtained) :
    (cache.entry? b).isSome = true ↔ b ∈ buckets := by
  unfold entry?
  rw [isSome_lookup_eq h.held_eq]
  constructor
  · rintro ⟨other, hother, hindex⟩
    rwa [← (h.obtained other hother).eq_of_index_eq hb hindex]
  · intro hmem
    exact ⟨b, hmem, rfl⟩

theorem Keeping.length_held (h : Keeping look settings roots buckets cache) :
    cache.held.length = buckets.length := by
  simpa using congrArg List.length h.held_eq

theorem weight_eq (entry : CacheEntry) : entry.weight = countedBytes (entry.map Image.raster) := by
  cases entry <;> rfl

theorem heldBytes_eq_sum (cache : TileCache) :
    cache.heldBytes = (cache.held.map fun e => e.2.weight).sum := by
  rw [List.sum, List.foldr_map]
  rfl

/-- The bytes held are those that the buckets count for. -/
theorem Keeping.heldBytes_eq (h : Keeping look settings roots buckets cache) :
    cache.heldBytes
      = ∑ b ∈ buckets.toFinset, countedBytes (searchedTile look settings.layout roots b) := by
  have hcounted := congrArg (List.map fun e => countedBytes e.2) h.held_eq
  rw [List.map_map, List.map_map] at hcounted
  rw [heldBytes_eq_sum, List.sum_toFinset _ h.nodup]
  exact congrArg List.sum ((List.map_congr_left fun e _ => weight_eq e.2).trans hcounted)

theorem keeping_nil (hsettings : cache.settings = settings) (hroots : cache.roots = roots)
    (hheld : cache.held = []) : Keeping look settings roots [] cache :=
  ⟨hsettings, hroots, List.nodup_nil, by simp, by simp [hheld]⟩

/-- Counters make no difference to what is kept. -/
theorem Keeping.congr {cache' : TileCache} (h : Keeping look settings roots buckets cache)
    (hsettings : cache'.settings = cache.settings) (hroots : cache'.roots = cache.roots)
    (hheld : cache'.held = cache.held) : Keeping look settings roots buckets cache' :=
  ⟨hsettings.trans h.settings_eq, hroots.trans h.roots_eq, h.nodup, h.obtained,
    hheld ▸ h.held_eq⟩

/-! ## Lookups -/

/-- A bucket that is kept is a hit, which only counts. -/
theorem Keeping.getImage_of_mem (h : Keeping look settings roots buckets cache) (hb : b ∈ buckets) :
    (cache.getImage look b).2 = { cache with hits := cache.hits + 1 } := by
  have hsome := (h.isSome_entry? (h.obtained b hb)).2 hb
  unfold getImage
  split
  · rfl
  · next hnone => simp [hnone] at hsome

/-- What a cache has counted after a miss. -/
structure MissCounts (look : Path → Candidate) (cache after : TileCache) (b : Bucket) : Prop where
  hits_eq : after.hits = cache.hits
  misses_eq : after.misses = cache.misses + 1
  probes_eq : after.probes = cache.probes + (lookedAt look (cache.candidates b)).length
  loads_eq : after.loads
    = cache.loads + (lookedAt look (cache.candidates b)).countP fun p => (look p).isFile

/-- A bucket for which nothing is kept is a miss. -/
theorem missCounts_of_entry?_eq_none (h : cache.entry? b = none) :
    MissCounts look cache (cache.getImage look b).2 b := by
  obtain ⟨hprobes, hloads⟩ := searchCandidates_counts look (cache.candidates b)
  unfold getImage
  rw [h]
  dsimp only
  split
  · unfold hold
    split <;> exact ⟨rfl, rfl, congrArg _ hprobes, congrArg _ hloads⟩
  · exact ⟨rfl, rfl, congrArg _ hprobes, congrArg _ hloads⟩

/-- Nothing is kept for a bucket that is not in the list. -/
theorem Keeping.entry?_eq_none (h : Keeping look settings roots buckets cache)
    (obtained : b.Obtained) (hb : b ∉ buckets) : cache.entry? b = none := by
  rwa [← Option.not_isSome_iff_eq_none, h.isSome_entry? obtained]

/-- What a miss finds is kept from then on if it is worth it. -/
theorem Keeping.getImage_of_not_mem (h : Keeping look settings roots buckets cache)
    (obtained : b.Obtained) (hb : b ∉ buckets)
    (hcapacity : WorthKeeping look settings roots b → settings.maxBytes ≠ 0) :
    (WorthKeeping look settings roots b →
        Keeping look settings roots (b :: buckets) (cache.getImage look b).2)
      ∧ (¬ WorthKeeping look settings roots b →
        Keeping look settings roots buckets (cache.getImage look b).2) := by
  have hfound := raster_search look cache b
  rw [h.settings_eq, h.roots_eq] at hfound
  have hworth : (((searchCandidates look (cache.candidates b)).raster.map fun raster =>
        Image.mk raster (some (cache.loads
          + (searchCandidates look (cache.candidates b)).loads))).isSome
      || cache.settings.memoizeMissing) = true ↔ WorthKeeping look settings roots b := by
    simp [hfound, h.settings_eq, WorthKeeping, or_comm]
  unfold getImage
  rw [h.entry?_eq_none obtained hb]
  dsimp only
  constructor
  · intro hkeep
    rw [if_pos (hworth.2 hkeep)]
    unfold hold
    rw [if_neg (by simpa [h.settings_eq] using hcapacity hkeep)]
    refine ⟨h.settings_eq, h.roots_eq, List.nodup_cons.2 ⟨hb, h.nodup⟩, ?_, ?_⟩
    · simpa [obtained] using h.obtained
    · simp [h.held_eq, hfound, Function.comp_def]
  · intro hdrop
    rw [if_neg (mt hworth.1 hdrop)]
    exact h.congr rfl rfl rfl

/-! ## Letting go -/

/-- All entries are among the newest that fit, if all of them fit. -/
theorem newestWithin_of_fits {budget : ℕ} {held : List (ℤ × CacheEntry)}
    (h : (held.map fun e => e.2.weight).sum ≤ budget) : newestWithin budget held = held := by
  induction held generalizing budget with
  | nil => rfl
  | cons first rest ih =>
    rw [List.map_cons, List.sum_cons] at h
    unfold newestWithin
    rw [if_pos (by omega), ih (by omega)]

/-- What fits is not let go. -/
theorem settle_of_fits (h : cache.heldBytes ≤ cache.settings.maxBytes) : cache.settle = cache := by
  rw [heldBytes_eq_sum] at h
  have hall : ∀ e ∈ cache.held, e.2.weight ≤ cache.settings.maxBytes := fun e he =>
    (List.le_sum_of_mem (List.mem_map_of_mem he)).trans h
  unfold settle
  dsimp only
  rw [List.filter_eq_self.2 fun e he => decide_eq_true (hall e he), newestWithin_of_fits h]

/-! ## Runs -/

/-- A bucket that is looked up and worth keeping needs some capacity. -/
theorem WithinCapacity.maxBytes_ne_zero {obtained : b.Obtained}
    (h : WithinCapacity look settings (steps ++ [.lookup b obtained]))
    (hworth : WorthKeeping look settings (rootsAfter steps) b) : settings.maxBytes ≠ 0 := by
  have hsum := h _ (List.prefix_refl _) {b} fun other hother => by
    rw [Finset.mem_singleton.1 hother]
    exact remembers_append_singleton.2 (.inr ⟨obtained, rfl, hworth⟩)
  rw [Finset.sum_singleton] at hsum
  exact Nat.ne_of_gt (Nat.lt_of_lt_of_le (countedBytes_pos _) hsum)

/-- Within capacity the bytes held are. -/
theorem Keeping.heldBytes_le (h : Keeping look settings (rootsAfter steps) buckets cache)
    (hmem : ∀ b, b ∈ buckets ↔ Remembers look settings steps b)
    (hfits : WithinCapacity look settings steps) : cache.heldBytes ≤ settings.maxBytes := by
  rw [h.heldBytes_eq]
  exact hfits _ (List.prefix_refl _) _ fun b hb => (hmem b).1 (List.mem_toFinset.1 hb)

/-- Within capacity nothing is let go. -/
theorem Keeping.settle_eq (h : Keeping look settings (rootsAfter steps) buckets cache)
    (hmem : ∀ b, b ∈ buckets ↔ Remembers look settings steps b)
    (hfits : WithinCapacity look settings steps) : cache.settle = cache := by
  apply settle_of_fits
  rw [h.settings_eq]
  exact h.heldBytes_le hmem hfits

/-- What is kept after a lookup are the buckets remembered then. -/
theorem Keeping.lookup (h : Keeping look settings (rootsAfter steps) buckets cache)
    (hmem : ∀ b, b ∈ buckets ↔ Remembers look settings steps b) {obtained : b.Obtained}
    (hcapacity : WorthKeeping look settings (rootsAfter steps) b → settings.maxBytes ≠ 0) :
    ∃ buckets', Keeping look settings (rootsAfter steps) buckets' (cache.getImage look b).2
      ∧ ∀ other, other ∈ buckets'
        ↔ Remembers look settings (steps ++ [.lookup b obtained]) other := by
  by_cases hb : b ∈ buckets
  · refine ⟨buckets, ?_, fun other => ?_⟩
    · rw [h.getImage_of_mem hb]
      exact h.congr rfl rfl rfl
    · rw [remembers_append_lookup, ← hmem]
      exact ⟨.inl, fun hother => hother.elim id fun heq => heq.1 ▸ hb⟩
  · obtain ⟨hyes, hno⟩ := h.getImage_of_not_mem obtained hb hcapacity
    by_cases hworth : WorthKeeping look settings (rootsAfter steps) b
    · refine ⟨b :: buckets, hyes hworth, fun other => ?_⟩
      rw [remembers_append_lookup, ← hmem, List.mem_cons, or_comm]
      simp [hworth]
    · refine ⟨buckets, hno hworth, fun other => ?_⟩
      rw [remembers_append_lookup, ← hmem]
      simp [hworth]

/-- What is kept after one more step are the buckets remembered then. -/
theorem Keeping.apply (h : Keeping look settings (rootsAfter steps) buckets cache)
    (hmem : ∀ b, b ∈ buckets ↔ Remembers look settings steps b)
    (hfits : WithinCapacity look settings steps)
    (hcapacity : ∀ b obtained, step = .lookup b obtained →
      WorthKeeping look settings (rootsAfter steps) b → settings.maxBytes ≠ 0)
    (hevict : ∀ keep, step ≠ .evict keep) :
    ∃ buckets', Keeping look settings (rootsAfter (steps ++ [step])) buckets'
        (cache.apply look step)
      ∧ ∀ b, b ∈ buckets' ↔ Remembers look settings (steps ++ [step]) b := by
  rw [rootsAfter_append_singleton]
  have hdropped : step.Drops (rootsAfter steps) →
      ∀ b, b ∈ ([] : List Bucket) ↔ Remembers look settings (steps ++ [step]) b :=
    fun hdrops b => by simp [not_remembers_of_drops hdrops]
  have hsame : ¬ step.Drops (rootsAfter steps) → step.isLookup = false →
      ∀ b, b ∈ buckets ↔ Remembers look settings (steps ++ [step]) b :=
    fun hkeeps hlookup b => by rw [hmem, remembers_of_not_drops hkeeps hlookup]
  cases step with
  | lookup b obtained => exact h.lookup hmem (hcapacity b obtained rfl)
  | addRoot root =>
    unfold TileCache.apply TileCache.addRoot
    rw [h.roots_eq]
    by_cases hroot : (rootsAfter steps).contains root = true
    · simp only [Step.roots, if_pos hroot]
      exact ⟨buckets, h, hsame (by simpa [Step.Drops] using hroot) rfl⟩
    · simp only [Step.roots, if_neg hroot]
      exact ⟨[], keeping_nil h.settings_eq rfl rfl, hdropped (Bool.eq_false_iff.2 hroot)⟩
  | clearRoots => exact ⟨[], keeping_nil h.settings_eq rfl rfl, hdropped trivial⟩
  | clear => exact ⟨[], keeping_nil h.settings_eq h.roots_eq rfl, hdropped trivial⟩
  | evict keep => exact absurd rfl (hevict keep)
  | settle =>
    refine ⟨buckets, ?_, hsame id rfl⟩
    rw [TileCache.apply, h.settle_eq hmem hfits]
    exact h

/-- After any steps within capacity, the entries held are those of the remembered buckets. -/
theorem exists_keeping_run (hfits : WithinCapacity look settings steps)
    (hevict : ∀ keep, Step.evict keep ∉ steps) :
    ∃ buckets, Keeping look settings (rootsAfter steps) buckets ((empty settings).run look steps)
      ∧ ∀ b, b ∈ buckets ↔ Remembers look settings steps b := by
  induction steps using List.reverseRecOn with
  | nil => exact ⟨[], keeping_nil rfl rfl rfl, fun b => by simp [not_remembers_nil]⟩
  | append_singleton steps step ih =>
    have hfits' := hfits.of_prefix (List.prefix_append steps [step])
    obtain ⟨buckets, hkeeping, hmem⟩ := ih hfits' fun keep hkeep =>
      hevict keep (List.mem_append_left _ hkeep)
    rw [run_append_singleton]
    refine hkeeping.apply hmem hfits' ?_ fun keep hkeep => hevict keep (by simp [hkeep])
    rintro b obtained rfl hworth
    exact hfits.maxBytes_ne_zero hworth

/-- One more step stays within capacity if what is held after it does. -/
theorem WithinCapacity.append (hfits : WithinCapacity look settings steps)
    (hcapacity : settings.maxBytes ≠ 0) (hevict : ∀ keep, Step.evict keep ∉ steps ++ [step])
    (hheld : ((empty settings).run look (steps ++ [step])).heldBytes ≤ settings.maxBytes) :
    WithinCapacity look settings (steps ++ [step]) := by
  have hkeeps : ∀ keep, step ≠ .evict keep := fun keep hkeep => hevict keep (by simp [hkeep])
  obtain ⟨buckets, hkeeping, hmem⟩ := exists_keeping_run hfits fun keep hkeep =>
    hevict keep (List.mem_append_left _ hkeep)
  obtain ⟨buckets', hkeeping', hmem'⟩ := hkeeping.apply hmem hfits (fun _ _ _ _ => hcapacity) hkeeps
  rw [← run_append_singleton] at hkeeping'
  rw [hkeeping'.heldBytes_eq] at hheld
  intro before hbefore kept hkept
  rcases List.prefix_concat_iff.1 hbefore with rfl | hbefore
  · refine (Finset.sum_le_sum_of_subset fun b hb => ?_).trans hheld
    exact List.mem_toFinset.2 ((hmem' b).2 (hkept b hb))
  · exact hfits before hbefore kept hkept

/-- With some capacity, the entries of remembered buckets stay within it exactly if the entries that are
held do. -/
theorem withinCapacity_iff_heldBytes_le (hcapacity : settings.maxBytes ≠ 0)
    (hevict : ∀ keep, Step.evict keep ∉ steps) :
    WithinCapacity look settings steps ↔ ∀ before, before <+: steps →
      ((empty settings).run look before).heldBytes ≤ settings.maxBytes := by
  constructor
  · intro hfits before hbefore
    have hfits' := hfits.of_prefix hbefore
    obtain ⟨buckets, hkeeping, hmem⟩ := exists_keeping_run hfits' fun keep hkeep =>
      hevict keep (hbefore.subset hkeep)
    exact hkeeping.heldBytes_le hmem hfits'
  · intro hheld
    induction steps using List.reverseRecOn with
    | nil =>
      intro before hbefore buckets hbuckets
      obtain rfl := List.prefix_nil.1 hbefore
      rw [Finset.eq_empty_of_forall_notMem fun b hb => not_remembers_nil (hbuckets b hb)]
      exact Nat.zero_le _
    | append_singleton steps step ih =>
      have hfits := ih (fun keep hkeep => hevict keep (List.mem_append_left _ hkeep))
        fun before hbefore => hheld before (hbefore.trans (List.prefix_append ..))
      exact hfits.append hcapacity hevict (hheld _ (List.prefix_refl _))

/-- A lookup counts once, as a hit or as a miss, and decodes no more files than it looks at. -/
theorem counts_getImage (look : Path → Candidate) (cache : TileCache) (b : Bucket)
    (h : cache.loads ≤ cache.probes) :
    (cache.getImage look b).2.hits + (cache.getImage look b).2.misses
        = cache.hits + cache.misses + 1
      ∧ (cache.getImage look b).2.loads ≤ (cache.getImage look b).2.probes := by
  cases hentry : cache.entry? b with
  | some entry =>
    unfold getImage
    rw [hentry]
    exact ⟨Nat.add_right_comm .., h⟩
  | none =>
    have hmiss : MissCounts look cache (cache.getImage look b).2 b :=
      missCounts_of_entry?_eq_none hentry
    obtain ⟨hhits, hmisses, hprobes, hloads⟩ := hmiss
    rw [hhits, hmisses, hprobes, hloads]
    exact ⟨rfl, Nat.add_le_add h List.countP_le_length⟩

/-- Hits and misses are the lookups, and no more files are decoded than looked at. -/
theorem counts_run (look : Path → Candidate) (settings : CacheSettings) (steps : List Step) :
    ((empty settings).run look steps).hits + ((empty settings).run look steps).misses
        = steps.countP Step.isLookup
      ∧ ((empty settings).run look steps).loads ≤ ((empty settings).run look steps).probes := by
  induction steps using List.reverseRecOn with
  | nil => exact ⟨rfl, le_refl 0⟩
  | append_singleton steps step ih =>
    obtain ⟨hsum, hle⟩ := ih
    rw [run_append_singleton, List.countP_append, ← hsum]
    cases step with
    | lookup b obtained => exact counts_getImage look _ b hle
    | addRoot root =>
      simp only [apply, addRoot]
      split <;> exact ⟨rfl, hle⟩
    | clearRoots | clear | evict | settle => exact ⟨rfl, hle⟩

/-! ## The accounts -/

/-- The accounts of a cache after some steps. A lookup of a remembered bucket is a hit and touches
nothing but the number of hits; any other is a miss, which looks at every candidate if none is an image.
An entry is held for each remembered bucket, and the bytes are those that these entries count for. -/
structure Accounts (look : Path → Candidate) (settings : CacheSettings) (steps : List Step)
    (cache : TileCache) : Prop where
  roots_eq : cache.roots = rootsAfter steps
  hit : ∀ b, Remembers look settings steps b →
    (cache.getImage look b).2 = { cache with hits := cache.hits + 1 }
  miss : ∀ b, b.Obtained → ¬ Remembers look settings steps b →
    MissCounts look cache (cache.getImage look b).2 b
  miss_all : ∀ b, (∀ p ∈ cache.candidates b, (look p).raster? = none) →
    (lookedAt look (cache.candidates b)).length = 2 * (rootsAfter steps).length
  lookups : cache.statistics.hits + cache.statistics.misses = steps.countP Step.isLookup
  loads_le : cache.statistics.loads ≤ cache.statistics.probes
  entries : ∃ buckets : Finset Bucket, (∀ b, b ∈ buckets ↔ Remembers look settings steps b)
    ∧ cache.statistics.entries = buckets.card
    ∧ cache.statistics.bytes
      = ∑ b ∈ buckets, countedBytes (searchedTile look settings.layout (rootsAfter steps) b)

/-- A cache accounts exactly for what happened to it, as long as the tiles it remembers stay within
its capacity, so that none has to go. -/
theorem run_accounts (hfits : WithinCapacity look settings steps)
    (hevict : ∀ keep, Step.evict keep ∉ steps) :
    Accounts look settings steps ((empty settings).run look steps) := by
  obtain ⟨buckets, hkeeping, hmem⟩ := exists_keeping_run hfits hevict
  obtain ⟨hlookups, hloads⟩ := counts_run look settings steps
  refine
    { roots_eq := hkeeping.roots_eq
      hit := fun b hb => hkeeping.getImage_of_mem ((hmem b).2 hb)
      miss := ?_
      miss_all := ?_
      lookups := hlookups
      loads_le := hloads
      entries := ⟨buckets.toFinset, ?_, ?_, hkeeping.heldBytes_eq⟩ }
  · intro b obtained hb
    exact missCounts_of_entry?_eq_none (hkeeping.entry?_eq_none obtained (mt (hmem b).1 hb))
  · intro b hnone
    rw [lookedAt_of_none hnone, length_candidates, hkeeping.roots_eq]
  · intro b
    rw [List.mem_toFinset, hmem]
  · rw [List.toFinset_card_of_nodup hkeeping.nodup]
    exact hkeeping.length_held

/-- Beside a file that is no image the tile is found under the second extension. A second spelling of
the root drops nothing, so the next lookup of the bucket is a hit. -/
theorem run_accounts_beside_corrupt_file :
    ∃ (look : Path → Candidate) (b : Bucket) (obtained : b.Obtained) (steps : List Step),
      steps = [.addRoot ⟨"scenery"⟩, .lookup b obtained, .addRoot ⟨"scenery/"⟩, .settle]
        ∧ WithinCapacity look .standard steps ∧ (∀ keep, Step.evict keep ∉ steps)
        ∧ Remembers look .standard steps b
        ∧ (((empty .standard).run look steps).getImage look b).2.hits = 1
        ∧ ((empty .standard).run look steps).statistics
          = { hits := 0, misses := 1, probes := 2, loads := 2, entries := 1, bytes := 2 } := by
  let look : Path → Candidate := fun p =>
    if p.text.toList.getLast? = some 's' then .tile (.zero 2 1 .gray8) else .unreadable
  let b : Bucket := ⟨10, 1, 0, 1⟩
  let obtained : b.Obtained := .ofIndex (i := 3118792) (by decide)
  let steps : List Step := [.addRoot ⟨"scenery"⟩, .lookup b obtained, .addRoot ⟨"scenery/"⟩, .settle]
  have hevict : ∀ keep, Step.evict keep ∉ steps := by simp [steps]
  have hfits : WithinCapacity look .standard steps := by
    refine (withinCapacity_iff_heldBytes_le (by decide) hevict).2 ?_
    simp only [← List.mem_inits]
    decide +kernel
  have hremembers : Remembers look .standard steps b :=
    ⟨[.addRoot ⟨"scenery"⟩], [.addRoot ⟨"scenery/"⟩, .settle], obtained, rfl,
      ⟨by simp [Step.Drops]; decide +kernel, by simp [Step.Drops], trivial⟩, .inl rfl⟩
  have haccounts := run_accounts hfits hevict
  refine ⟨look, b, obtained, steps, rfl, hfits, hevict, hremembers, ?_, ?_⟩
  · rw [haccounts.hit b hremembers]
    decide +kernel
  · decide +kernel

/-- Two runs that stay within capacity and account for less than all that is remembered. The largest
tile that a canvas can be has 4 GiB and counts for a byte less. And without any capacity nothing is ever
held, so the bucket of a missing tile is searched for again although it should be kept in mind. -/
theorem run_accounts_limits :
    (∃ (look : Path → Candidate) (settings : CacheSettings) (b : Bucket) (obtained : b.Obtained)
        (steps : List Step) (raster : Raster),
      steps = [.addRoot ⟨"scenery"⟩, .lookup b obtained] ∧ settings.maxBytes = 8589934592
        ∧ (∀ before, before <+: steps →
          ((empty settings).run look before).heldBytes ≤ settings.maxBytes)
        ∧ Remembers look settings steps b
        ∧ searchedTile look settings.layout (rootsAfter steps) b = some raster
        ∧ raster.byteSize = 4294967296
        ∧ ((empty settings).run look steps).statistics
          = { hits := 0, misses := 1, probes := 1, loads := 1, entries := 1, bytes := 4294967295 })
      ∧ ∃ (look : Path → Candidate) (settings : CacheSettings) (b : Bucket)
          (obtained : b.Obtained) (steps : List Step),
        steps = [.addRoot ⟨"scenery"⟩, .lookup b obtained]
          ∧ settings.memoizeMissing = true ∧ settings.maxBytes = 0
          ∧ (∀ before, before <+: steps →
            ((empty settings).run look before).heldBytes ≤ settings.maxBytes)
          ∧ Remembers look settings steps b
          ∧ (((empty settings).run look steps).getImage look b).2.hits = 0
          ∧ ((empty settings).run look steps).statistics
            = { hits := 0, misses := 1, probes := 2, loads := 0, entries := 0, bytes := 0 } := by
  let b : Bucket := ⟨10, 1, 0, 1⟩
  let obtained : b.Obtained := .ofIndex (i := 3118792) (by decide)
  let steps : List Step := [.addRoot ⟨"scenery"⟩, .lookup b obtained]
  have hremembers : ∀ (look : Path → Candidate) (settings : CacheSettings),
      settings.memoizeMissing = true → Remembers look settings steps b := fun look settings hkeep =>
    ⟨[.addRoot ⟨"scenery"⟩], [], obtained, rfl, trivial, .inl hkeep⟩
  refine ⟨?_, ?_⟩
  · let look : Path → Candidate := fun _ => .tile (.zero 16384 16384 .rgba32)
    let settings : CacheSettings := { CacheSettings.standard with maxBytes := 8589934592 }
    refine ⟨look, settings, b, obtained, steps, .zero 16384 16384 .rgba32, rfl, rfl, ?_,
      hremembers _ _ rfl, rfl, rfl, ?_⟩
    · simp only [← List.mem_inits]
      decide +kernel
    · decide +kernel
  · let look : Path → Candidate := fun _ => .absent
    let settings : CacheSettings := { CacheSettings.standard with maxBytes := 0 }
    refine ⟨look, settings, b, obtained, steps, rfl, rfl, rfl, ?_, hremembers _ _ rfl, ?_, ?_⟩
    · simp only [← List.mem_inits]
      decide +kernel
    · decide +kernel
    · decide +kernel

end TileCache

end Orthomosaic
