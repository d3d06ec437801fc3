import Orthomosaic.Proofs.Lookup.RootOrder
import Orthomosaic.Scenery

/-!
# Lists of scenery roots under any changes

However often roots are put behind a list or in front of it, no root is listed twice, none is lost, and
none comes in that was not given (`Scenery.run_keeps`). Roots that are put in front stand there in the
order and the spelling in which they are first given, which `Scenery.FirstPlaces` says without reference
to how they are picked, and those listed before keep their order behind them.

What one change does is `Scenery.contains_apply` and `Distinct.apply`; a run of changes follows from them
by induction.
-/

namespace Orthomosaic

/-! ## First places -/

section FirstPlaces

variable {α : Type} [BEq α] [EquivBEq α]

/-- What is kept of a list without repeats is the first of several equal entries. -/
theorem mem_eraseDups_iff_find? (l : List α) (a : α) :
    a ∈ l.eraseDups ↔ l.find? (· == a) = some a := by
  induction hlength : l.length using Nat.strongRecOn generalizing l with
  | _ n ih =>
    cases l with
    | nil => simp
    | cons b l =>
      have hshorter : (l.filter fun c => !c == b).length < n := by
        rw [← hlength, List.length_cons]
        exact Nat.lt_succ_of_le (List.length_filter_le _ _)
      rw [List.eraseDups_cons, List.mem_cons, ih _ hshorter _ rfl, List.find?_filter,
        List.find?_cons]
      cases hb : b == a with
      | true =>
        -- an entry that is equal to the first one is not kept again
        have hnone : l.find? (fun c => !c == b && c == a) = none := by
          rw [List.find?_eq_none]
          intro c _ hc
          have hcb : (c == b) = true := BEq.trans (Bool.and_eq_true _ _ ▸ hc).2 (BEq.symm hb)
          simp [hcb] at hc
        simpa [hnone] using eq_comm
      | false =>
        have hne : a ≠ b := by
          rintro rfl
          simp at hb
        have hsame : (fun c => !c == b && c == a) = (· == a) := by
          funext c
          cases hca : c == a with
          | false => simp
          | true =>
            have hcb : (c == b) = false := by
              by_contra hcb
              rw [BEq.trans (BEq.symm (eq_true_of_ne_false hcb)) hca] at hb
              cases hb
            simp [hcb]
        simp [hsame, hne]

end FirstPlaces

namespace Scenery

/-- Whether no path is listed twice, in whatever spelling. -/
def Distinct (roots : List Path) : Prop :=
  roots.Pairwise fun p q => (p == q) = false

instance (roots : List Path) : Decidable (Distinct roots) :=
  inferInstanceAs (Decidable (roots.Pairwise _))

/-- Whether a list is another one without its later repeats: it has the first of several equal paths, and
these in the order of their first places. -/
structure FirstPlaces (given front : List Path) : Prop where
  mem_iff : ∀ p, p ∈ front ↔ given.find? (· == p) = some p
  order : front.Pairwise fun p q => given.idxOf p < given.idxOf q

variable {roots given front : List Path}

theorem firstPlaces_eraseDups (given : List Path) : FirstPlaces given given.eraseDups := by
  constructor
  · exact mem_eraseDups_iff_find? given
  · have hsteps := pairwise_eraseDups (given.map Path.steps)
    rw [← Path.map_eraseDups, List.pairwise_map] at hsteps
    simpa [Path.idxOf_eq] using hsteps

theorem distinct_iff : Distinct roots ↔ (roots.map Path.steps).Nodup := by
  rw [List.Nodup, List.pairwise_map]
  refine List.Pairwise.iff fun p q => ?_
  rw [ne_eq, ← Path.beq_iff, Bool.not_eq_true]

theorem distinct_eraseDups (given : List Path) : Distinct given.eraseDups := by
  rw [distinct_iff, Path.map_eraseDups, eraseDups_eq_reverse_dedup, List.nodup_reverse]
  exact List.nodup_dedup _

theorem contains_eraseDups (given : List Path) (p : Path) :
    given.eraseDups.contains p = given.contains p := by
  rw [Bool.eq_iff_iff, Path.contains_iff, Path.contains_iff, Path.map_eraseDups,
    List.mem_eraseDups]

/-! ## One change -/

/-- A change of a list of roots. -/
inductive Change where
  | append (root : Path)
  | prioritize (given : List Path)

/-- The list after a change. -/
def Change.apply (roots : List Path) : Change → List Path
  | append root => Scenery.append roots root
  | prioritize given => Scenery.prioritize roots given

/-- The roots that a change gives. -/
def Change.paths : Change → List Path
  | append root => [root]
  | prioritize given => given

/-- In front stand the roots that are given, without later repeats; the others keep their order. -/
theorem prioritize_eq (roots given : List Path) :
    ∃ front, FirstPlaces given front
      ∧ prioritize roots given = front ++ roots.filter (!given.contains ·) := by
  refine ⟨_, firstPlaces_eraseDups given, ?_⟩
  simp only [prioritize, contains_eraseDups]

/-- Putting the same roots in front again changes nothing. -/
theorem prioritize_prioritize (roots given : List Path) :
    prioritize (prioritize roots given) given = prioritize roots given := by
  have hfront : given.eraseDups.filter (!given.eraseDups.contains ·) = [] := by
    rw [List.filter_eq_nil_iff]
    intro p hp
    have hlisted : given.eraseDups.contains p = true :=
      List.contains_iff_exists_mem_beq.2 ⟨p, hp, BEq.rfl⟩
    simp [hlisted]
  simp only [prioritize, List.filter_append, List.filter_filter, Bool.and_self, hfront,
    List.nil_append]

/-- After a change, a list has the roots that it had and those that are given. -/
theorem contains_apply (roots : List Path) (c : Change) (p : Path) :
    (c.apply roots).contains p = (roots.contains p || c.paths.contains p) := by
  rw [Bool.eq_iff_iff, Bool.or_eq_true]
  cases c with
  | append root =>
    change (append roots root).contains p = true ↔ _ ∨ [root].contains p = true
    unfold append
    split
    · next hlisted =>
      rw [Path.contains_iff] at hlisted ⊢
      constructor
      · exact .inl
      · rintro (hp | hp)
        · exact hp
        · rwa [(Path.beq_iff p root).1 (by simpa using hp)]
    · simp [Path.contains_iff]
  | prioritize given =>
    change (prioritize roots given).contains p = true ↔ _ ∨ given.contains p = true
    simp only [prioritize, contains_eraseDups]
    rw [Path.contains_iff, Path.contains_iff, Path.contains_iff, List.map_append,
      Path.map_eraseDups, List.mem_append, List.mem_eraseDups, or_comm]
    refine or_congr_left' fun hnew => ?_
    rw [List.mem_map, List.mem_map]
    refine exists_congr fun q => and_congr_left fun hsteps => ?_
    -- what is listed and not given stays listed
    have hkept : given.contains q = false := by
      rw [← Bool.not_eq_true, Path.contains_iff, hsteps]
      exact hnew
    simp [hkept]

/-- A change lists no root twice. -/
theorem Distinct.apply (h : Distinct roots) (c : Change) : Distinct (c.apply roots) := by
  cases c with
  | append root =>
    change Distinct (append roots root)
    unfold append
    split
    · exact h
    · next hnew =>
      refine List.pairwise_append.2 ⟨h, List.pairwise_singleton _ _, ?_⟩
      intro p hp q hq
      obtain rfl := List.mem_singleton.1 hq
      by_contra hequal
      exact hnew (List.contains_iff_exists_mem_beq.2
        ⟨p, hp, BEq.symm (eq_true_of_ne_false hequal)⟩)
  | prioritize given =>
    refine List.pairwise_append.2 ⟨distinct_eraseDups given, h.filter _, ?_⟩
    intro p hp q hq
    by_contra hequal
    have hlisted : given.eraseDups.contains q = true :=
      List.contains_iff_exists_mem_beq.2 ⟨p, hp, BEq.symm (eq_true_of_ne_false hequal)⟩
    simp [hlisted] at hq

/-! ## Any changes -/

/-- The list after some changes. -/
def run (roots : List Path) (changes : List Change) : List Path :=
  changes.foldl Change.apply roots

theorem contains_run (roots : List Path) (changes : List Change) (p : Path) :
    (run roots changes).contains p
      = (roots.contains p || (changes.flatMap Change.paths).contains p) := by
  induction changes generalizing roots with
  | nil => simp [run]
  | cons c changes ih =>
    change (run (c.apply roots) changes).contains p = _
    rw [ih, contains_apply, List.flatMap_cons, List.contains_append, Bool.or_assoc]

theorem Distinct.run (h : Distinct roots) (changes : List Change) : Distinct (run roots changes) := by
  induction changes generalizing roots with
  | nil => exact h
  | cons c changes ih => exact ih (h.apply c)

/-- Whatever is done to a list without two equal paths, it has no two equal paths, and it has exactly the
paths that it had and those that were given. Paths then put in front stand there as `FirstPlaces` says,
with the others behind them in their order, and putting them there again changes nothing. -/
theorem run_keeps (h : Distinct roots) (changes : List Change) :
    Distinct (run roots changes)
      ∧ (∀ p, (run roots changes).contains p
        = (roots.contains p || (changes.flatMap Change.paths).contains p))
      ∧ ∀ given, (∃ front, FirstPlaces given front
          ∧ prioritize (run roots changes) given
            = front ++ (run roots changes).filter (!given.contains ·))
        ∧ prioritize (prioritize (run roots changes) given) given
          = prioritize (run roots changes) given :=
  ⟨h.run changes, contains_run roots changes, fun given =>
    ⟨prioritize_eq _ given, prioritize_prioritize _ given⟩⟩

/-- Roots in several spellings, some of them given twice. -/
theorem run_keeps_respelled :
    Distinct [⟨"a"⟩, ⟨"b"⟩]
      ∧ Distinct (run [⟨"a"⟩, ⟨"b"⟩] [.append ⟨"b/"⟩, .prioritize [⟨"c//"⟩, ⟨"./a"⟩, ⟨"c"⟩, ⟨"a/."⟩]])
      ∧ (run [⟨"a"⟩, ⟨"b"⟩] [.append ⟨"b/"⟩, .prioritize [⟨"c//"⟩, ⟨"./a"⟩, ⟨"c"⟩, ⟨"a/."⟩]]).map Path.text
        = ["c//", "./a", "a/.", "b"] := by
  have h : Distinct [⟨"a"⟩, ⟨"b"⟩] := by decide +kernel
  refine ⟨h, (run_keeps h _).1, ?_⟩
  decide +kernel

end Scenery

end Orthomosaic
