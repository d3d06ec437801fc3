import Orthomosaic.Lookup.Points
import Orthomosaic.Proofs.Bounds.Growth
import Orthomosaic.Proofs.Mosaic.Coverage
import Orthomosaic.Proofs.Tile.Naming

/-!
# The buckets of a request for points

The rectangle around some points is pulled in, every point is moved into it, and the bucket of each is found
(`lookupBucket`). A request has the buckets that are found, each once (`mem_pointBuckets?`): their numbers, by
which repetitions are told, are those of different buckets.
-/

namespace Orthomosaic

open Scalar

/-! ## Lists without repetitions -/

/-- Dropping what has the key of an earlier entry keeps one entry of each key. -/
theorem eraseDupsBy_spec {α β : Type} [BEq β] [LawfulBEq β] (key : α → β) (l : List α)
    (hkey : ∀ a ∈ l, ∀ b ∈ l, key a = key b → a = b) :
    (∀ a, a ∈ l.eraseDupsBy (fun a b => key a == key b) ↔ a ∈ l)
      ∧ (l.eraseDupsBy fun a b => key a == key b).Nodup := by
  induction hlength : l.length using Nat.strongRecOn generalizing l with
  | _ n ih =>
    cases l with
    | nil => exact ⟨fun _ => Iff.rfl, List.nodup_nil⟩
    | cons a l =>
      have hrest : ∀ b, b ∈ l.filter (fun b => decide ((key b == key a) = false)) ↔ b ∈ l ∧ b ≠ a := by
        intro b
        rw [List.mem_filter, decide_eq_true_iff, beq_eq_false_iff_ne]
        refine and_congr_right fun hb => not_congr ⟨fun h => ?_, congrArg key⟩
        exact hkey b (List.mem_cons_of_mem a hb) a List.mem_cons_self h
      have hshorter : (l.filter fun b => decide ((key b == key a) = false)).length < n := by
        rw [← hlength, List.length_cons]
        exact Nat.lt_succ_of_le (List.length_filter_le _ _)
      have hkey' : ∀ b ∈ l.filter (fun b => decide ((key b == key a) = false)),
          ∀ c ∈ l.filter (fun b => decide ((key b == key a) = false)), key b = key c → b = c :=
        fun b hb c hc => hkey b (List.mem_cons_of_mem a ((hrest b).1 hb).1) c
          (List.mem_cons_of_mem a ((hrest c).1 hc).1)
      obtain ⟨hmem, hnodup⟩ := ih _ hshorter _ hkey' rfl
      rw [List.eraseDupsBy_cons]
      refine ⟨fun b => ?_, List.nodup_cons.2 ⟨fun ha => ((hrest a).1 ((hmem a).1 ha)).2 rfl, hnodup⟩⟩
      rw [List.mem_cons, List.mem_cons, hmem, hrest]
      by_cases hb : b = a <;> simp [hb]

/-! ## Where points are looked up -/

/-- The rectangle that points are moved into before their buckets are looked up. -/
def lookupTarget (points : List (ℚ × ℚ)) : Bounds ℚ :=
  (Bounds.ofPoints points).shrunk edgeInset

/-- Where a point of a request is looked up. -/
def lookupPoint (points : List (ℚ × ℚ)) (p : ℚ × ℚ) : ℚ × ℚ :=
  ((lookupTarget points).clampLon p.1,
    between (lookupTarget points).south (lookupTarget points).north p.2)

/-- The bucket that is found for a point of a request. -/
def lookupBucket (points : List (ℚ × ℚ)) (p : ℚ × ℚ) : Bucket :=
  Bucket.containing (lookupPoint points p).1 (lookupPoint points p).2

variable {points points' : List (ℚ × ℚ)} {buckets : List Bucket}

/-- The rectangle around some points is what grows by taking them in. -/
theorem ofPoints_eq_grow (points : List (ℚ × ℚ)) :
    Bounds.ofPoints points = Bounds.grow (points.map fun p => Bounds.GrowthStep.expand p.1 p.2) := by
  unfold Bounds.ofPoints Bounds.grow
  rw [List.foldl_map]
  rfl

/-- Any points may be taken in. -/
theorem valid_expand (points : List (ℚ × ℚ)) :
    ∀ step ∈ points.map fun p => Bounds.GrowthStep.expand p.1 p.2, step.Valid := by
  intro step hstep
  obtain ⟨p, -, rfl⟩ := List.mem_map.1 hstep
  trivial

theorem wellFormed_ofPoints (hne : points ≠ []) : (Bounds.ofPoints points).WellFormed := by
  rw [ofPoints_eq_grow]
  exact (Bounds.eq_nil_or_wellFormed_grow (valid_expand points)).resolve_left (by simpa using hne)

/-- The rectangle around some points holds each of them. -/
theorem holds_ofPoints {p : ℚ × ℚ} (hp : p ∈ points) : (Bounds.ofPoints points).Holds p.1 p.2 := by
  have hstep : Bounds.GrowthStep.expand p.1 p.2
      ∈ points.map fun p => Bounds.GrowthStep.expand p.1 p.2 := List.mem_map.2 ⟨p, hp, rfl⟩
  have hadds : (Bounds.GrowthStep.expand p.1 p.2).Adds p.1 p.2 := ⟨rfl, rfl⟩
  rw [ofPoints_eq_grow]
  exact (Bounds.holds_grow (valid_expand points) hstep hadds).2

/-- The buckets of a request are those found for its points, each once. -/
theorem pointBuckets?_eq_some (points : List (ℚ × ℚ)) :
    pointBuckets? points
      = some ((points.map (lookupBucket points)).eraseDupsBy fun a b => a.index == b.index) := by
  by_cases hne : points = []
  · subst hne
    rfl
  have htarget : (lookupTarget points).WellFormed :=
    (wellFormed_ofPoints hne).shrunk BucketGrid.edgeInset_pos.le
  have hmoved : points.mapM (fun p => (lookupTarget points).clamp? p.1 p.2)
      = some (points.map (lookupPoint points)) := by
    have hclamp : (fun p : ℚ × ℚ => (lookupTarget points).clamp? p.1 p.2)
        = fun p => pure (lookupPoint points p) :=
      funext fun p => (Bounds.clamp?_spec htarget p.1 p.2).1
    rw [hclamp, List.mapM_pure]
    rfl
  have hfound : (points.map (lookupPoint points)).map (fun p => Bucket.containing p.1 p.2)
      = points.map (lookupBucket points) := List.map_map
  unfold pointBuckets?
  change (points.mapM (fun p => (lookupTarget points).clamp? p.1 p.2)).bind _ = _
  rw [hmoved, ← hfound]
  rfl

namespace Bucket

/-- Every bucket that is found is canonical. -/
theorem canonical_lookupBucket (points : List (ℚ × ℚ)) (p : ℚ × ℚ) : (lookupBucket points p).Canonical :=
  (canonical_iff_containing _).2 ⟨_, _, rfl⟩

variable {b b' : Bucket}

/-- Canonical buckets are known by their numbers. -/
theorem Canonical.eq_of_index_eq (h : b.Canonical) (h' : b'.Canonical) (hindex : b.index = b'.index) :
    b = b' := by
  have hread := h.numberable.ofIndex?_index
  rw [hindex, h'.numberable.ofIndex?_index] at hread
  exact (Option.some.inj hread).symm

/-- Canonical buckets are known by their extents. -/
theorem Canonical.eq_of_bounds_eq (h : b.Canonical) (h' : b'.Canonical)
    (hbounds : (b.bounds : Bounds ℚ) = b'.bounds) : b = b' := by
  obtain ⟨row, column, -, -, rfl, -⟩ := h.exists_cell
  obtain ⟨row', column', -, -, rfl, -⟩ := h'.exists_cell
  rw [bounds_ofCell, bounds_ofCell, Bounds.mk.injEq] at hbounds
  obtain ⟨hwest, -, hsouth, -⟩ := hbounds
  obtain rfl : row = row' := by
    unfold rowSouth at hsouth
    have : (row : ℚ) = row' := by linarith
    exact_mod_cast this
  exact ofCell_congr (hwest ▸ .refl _)

end Bucket

/-- The buckets of a request, and that each comes once. -/
theorem mem_pointBuckets? (h : pointBuckets? points = some buckets) :
    (∀ b, b ∈ buckets ↔ ∃ p ∈ points, lookupBucket points p = b) ∧ buckets.Nodup := by
  rw [pointBuckets?_eq_some] at h
  obtain rfl := Option.some.inj h
  obtain ⟨hmem, hnodup⟩ := eraseDupsBy_spec Bucket.index (points.map (lookupBucket points)) (by
    intro a ha b hb
    obtain ⟨p, -, rfl⟩ := List.mem_map.1 ha
    obtain ⟨q, -, rfl⟩ := List.mem_map.1 hb
    exact (Bucket.canonical_lookupBucket points p).eq_of_index_eq (Bucket.canonical_lookupBucket points q))
  exact ⟨fun b => (hmem b).trans List.mem_map, hnodup⟩

theorem canonical_of_pointBuckets? (h : pointBuckets? points = some buckets) : ∀ b ∈ buckets, b.Canonical := by
  intro b hb
  obtain ⟨p, -, rfl⟩ := ((mem_pointBuckets? h).1 b).1 hb
  exact Bucket.canonical_lookupBucket points p

end Orthomosaic
