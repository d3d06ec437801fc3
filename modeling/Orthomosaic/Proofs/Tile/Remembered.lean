import Mathlib.Algebra.BigOperators.Group.Finset.Basic
import Orthomosaic.Proofs.Tile.Transparency

/-!
# What a cache remembers

Which buckets a lookup need not search for is told by what happened alone, without a look at the
cache: those looked up since the entries were dropped last, save the ones without a tile if missing
tiles are not kept in mind. `TileCache.Remembers` says so of a whole run, and
`TileCache.remembers_append_singleton` of one more step, which is how the two are compared.
-/

namespace Orthomosaic

/-- What an entry counts for: the bytes of the tile that was found, within the bounds of a 32-bit
count, and 1 if none was. -/
def countedBytes : Option Raster → ℕ
  | none => 1
  | some raster => max 1 (min raster.byteSize Word.unsigned32)

theorem countedBytes_pos (found : Option Raster) : 0 < countedBytes found := by
  cases found with
  | none => exact Nat.one_pos
  | some raster => exact Nat.lt_of_lt_of_le Nat.one_pos (le_max_left _ _)

namespace TileCache

/-- Whether a step, taken when there are some roots, drops all entries. A root that is there already
drops none. -/
def Step.Drops (roots : List Path) : Step → Prop
  | .addRoot root => roots.contains root = false
  | .clearRoots => True
  | .clear => True
  | .lookup _ _ => False
  | .evict _ => False
  | .settle => False

/-- None of some steps, from some roots on, drops the entries. -/
def NoneDrops (roots : List Path) : List Step → Prop
  | [] => True
  | step :: rest => ¬ step.Drops roots ∧ NoneDrops (step.roots roots) rest

/-- Whether a step is a lookup. -/
def Step.isLookup : Step → Bool
  | .lookup _ _ => true
  | _ => false

variable (look : Path → Candidate) (settings : CacheSettings)

/-- What a lookup finds for a bucket is worth keeping in mind. -/
def WorthKeeping (roots : List Path) (b : Bucket) : Prop :=
  settings.memoizeMissing = true ∨ (searchedTile look settings.layout roots b).isSome = true

/-- A bucket is remembered after some steps: it was looked up, no step since then has dropped the
entries, and a tile was found then or missing ones are kept in mind. -/
def Remembers (steps : List Step) (b : Bucket) : Prop :=
  ∃ (before after : List Step) (obtained : b.Obtained),
    steps = before ++ .lookup b obtained :: after
      ∧ NoneDrops (rootsAfter before) after
      ∧ WorthKeeping look settings (rootsAfter before) b

/-- At no time do the entries of remembered buckets count for more than the capacity. -/
def WithinCapacity (steps : List Step) : Prop :=
  ∀ before, before <+: steps → ∀ buckets : Finset Bucket,
    (∀ b ∈ buckets, Remembers look settings before b) →
      ∑ b ∈ buckets, countedBytes (searchedTile look settings.layout (rootsAfter before) b)
        ≤ settings.maxBytes

variable {look settings} {roots : List Path} {steps : List Step} {step : Step} {b : Bucket}

theorem rootsAfter_append_singleton (steps : List Step) (step : Step) :
    rootsAfter (steps ++ [step]) = step.roots (rootsAfter steps) := by
  simp [rootsAfter]

theorem run_append_singleton (cache : TileCache) (steps : List Step) (step : Step) :
    cache.run look (steps ++ [step]) = (cache.run look steps).apply look step := by
  simp [run]

/-- One more step drops nothing if the others do not and it does not. -/
theorem noneDrops_append_singleton :
    NoneDrops roots (steps ++ [step])
      ↔ NoneDrops roots steps ∧ ¬ step.Drops (steps.foldl Step.roots roots) := by
  induction steps generalizing roots with
  | nil => simp [NoneDrops]
  | cons first rest ih => simp [NoneDrops, ih, and_assoc]

theorem not_remembers_nil : ¬ Remembers look settings [] b := by
  rintro ⟨before, after, obtained, h, -⟩
  simp at h

/-- What is remembered after one more step: what was before, unless the step drops the entries, and
the bucket that the step looks up, if what it finds is worth keeping. -/
theorem remembers_append_singleton :
    Remembers look settings (steps ++ [step]) b
      ↔ (Remembers look settings steps b ∧ ¬ step.Drops (rootsAfter steps))
        ∨ ∃ obtained, step = .lookup b obtained
          ∧ WorthKeeping look settings (rootsAfter steps) b := by
  constructor
  · rintro ⟨before, after, obtained, hsteps, hkept, hworth⟩
    rcases List.eq_nil_or_concat after with rfl | ⟨after, last, rfl⟩
    · obtain ⟨rfl, hlast⟩ := List.append_inj' hsteps rfl
      exact .inr ⟨obtained, List.singleton_inj.1 hlast, hworth⟩
    · rw [List.concat_eq_append] at hsteps hkept
      rw [← List.cons_append, ← List.append_assoc] at hsteps
      obtain ⟨rfl, hlast⟩ := List.append_inj' hsteps rfl
      obtain rfl := List.singleton_inj.1 hlast
      obtain ⟨hkept, hdrops⟩ := noneDrops_append_singleton.1 hkept
      refine .inl ⟨⟨before, after, obtained, rfl, hkept, hworth⟩, ?_⟩
      simpa [rootsAfter, Step.roots] using hdrops
  · rintro (⟨⟨before, after, obtained, rfl, hkept, hworth⟩, hdrops⟩ | ⟨obtained, rfl, hworth⟩)
    · refine ⟨before, after ++ [step], obtained, by simp, ?_, hworth⟩
      refine noneDrops_append_singleton.2 ⟨hkept, ?_⟩
      simpa [rootsAfter, Step.roots] using hdrops
    · exact ⟨steps, [], obtained, rfl, trivial, hworth⟩

/-- A step that drops the entries leaves nothing remembered. -/
theorem not_remembers_of_drops (h : step.Drops (rootsAfter steps)) :
    ¬ Remembers look settings (steps ++ [step]) b := by
  rw [remembers_append_singleton]
  rintro (⟨-, hno⟩ | ⟨obtained, rfl, -⟩)
  · exact hno h
  · exact h

/-- A step that neither drops the entries nor looks up a bucket leaves the same remembered. -/
theorem remembers_of_not_drops (h : ¬ step.Drops (rootsAfter steps))
    (hlookup : step.isLookup = false) :
    Remembers look settings (steps ++ [step]) b ↔ Remembers look settings steps b := by
  rw [remembers_append_singleton]
  constructor
  · rintro (⟨hb, -⟩ | ⟨obtained, rfl, -⟩)
    · exact hb
    · cases hlookup
  · exact fun hb => .inl ⟨hb, h⟩

/-- A lookup adds its bucket, if what it finds is worth keeping. -/
theorem remembers_append_lookup {obtained : b.Obtained} {other : Bucket} :
    Remembers look settings (steps ++ [.lookup b obtained]) other
      ↔ Remembers look settings steps other
        ∨ (other = b ∧ WorthKeeping look settings (rootsAfter steps) b) := by
  rw [remembers_append_singleton]
  constructor
  · rintro (⟨hother, -⟩ | ⟨_, hstep, hworth⟩)
    · exact .inl hother
    · cases hstep
      exact .inr ⟨rfl, hworth⟩
  · rintro (hother | ⟨rfl, hworth⟩)
    · exact .inl ⟨hother, fun hdrops => hdrops⟩
    · exact .inr ⟨obtained, rfl, hworth⟩

theorem WithinCapacity.of_prefix {before : List Step} (h : WithinCapacity look settings steps)
    (hbefore : before <+: steps) : WithinCapacity look settings before :=
  fun first hfirst => h first (hfirst.trans hbefore)

end TileCache

end Orthomosaic
