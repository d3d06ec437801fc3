import Mathlib.Data.List.Dedup
import Mathlib.Data.List.Induction
import Mathlib.Data.List.Pairwise
import Mathlib.Order.Nat
import Orthomosaic.Lookup.Roots
import Orthomosaic.Proofs.Path

/-!
# The order in which configured roots are searched

A cache started on a list of directories searches each of them at its last place in the list
(`Scenery.lastPlaces`), since the list is fed from its end and a root that is there already stays
where it is. So a root that is listed a second time, further back, loses its rank to every root
between the two places. `TileCache.start_order` says exactly when the search still goes through the
roots in the order in which the list first names them.

Paths are compared by their steps, so everything is carried over to the list of their steps. There
`List.dedup` keeps last places and `List.eraseDups` keeps first places.
-/

namespace Orthomosaic

/-! ## First and last places in a list -/

section Places

variable {α : Type} [DecidableEq α] [BEq α] [LawfulBEq α]

/-- First places are the last places of the list read backwards. -/
theorem eraseDups_eq_reverse_dedup (l : List α) : l.eraseDups = l.reverse.dedup.reverse := by
  induction l using List.reverseRecOn with
  | nil => rfl
  | append_singleton l a ih =>
    rw [List.eraseDups_append, ih, List.reverse_append]
    by_cases h : a ∈ l
    · simp [List.removeAll, h]
    · simp [List.removeAll, h, List.eraseDups_cons]

/-- Of two entries without repeats at their last places, the one in front has the earlier last
place. -/
theorem pairwise_dedup (l : List α) :
    l.dedup.Pairwise fun a b => l.reverse.idxOf b < l.reverse.idxOf a := by
  induction l with
  | nil => exact List.Pairwise.nil
  | cons a l ih =>
    have hlater : ∀ b ∈ l, (a :: l).reverse.idxOf b = l.reverse.idxOf b := by
      intro b hb
      rw [List.reverse_cons, List.idxOf_append_of_mem (List.mem_reverse.2 hb)]
    have hrest : l.dedup.Pairwise fun b c =>
        (a :: l).reverse.idxOf c < (a :: l).reverse.idxOf b := by
      refine ih.imp_of_mem ?_
      intro b c hb hc hlt
      rw [hlater b (List.mem_dedup.1 hb), hlater c (List.mem_dedup.1 hc)]
      exact hlt
    by_cases h : a ∈ l
    · rwa [List.dedup_cons_of_mem h]
    · rw [List.dedup_cons_of_notMem h]
      refine hrest.cons ?_
      intro b hb
      have hbl : b ∈ l.reverse := by simpa using hb
      rw [hlater b (List.mem_dedup.1 hb), List.reverse_cons,
        List.idxOf_append_of_notMem (by simpa using h)]
      exact (List.idxOf_lt_length_of_mem hbl).trans_le (Nat.le_add_right _ _)

/-- Of two entries at their first places, the one in front has the earlier first place. -/
theorem pairwise_eraseDups (l : List α) :
    l.eraseDups.Pairwise fun a b => l.idxOf a < l.idxOf b := by
  rw [eraseDups_eq_reverse_dedup, List.pairwise_reverse]
  simpa using pairwise_dedup l.reverse

/-- Last places and first places come in one order exactly if no entry that is named first before
another one is named last behind it. -/
theorem dedup_eq_eraseDups_iff (l : List α) :
    l.dedup = l.eraseDups
      ↔ ∀ a ∈ l, ∀ b ∈ l, l.idxOf a < l.idxOf b → l.reverse.idxOf b < l.reverse.idxOf a := by
  constructor
  · intro heq a ha b hb hfirst
    let Agree : α → α → Prop := fun a b =>
      (l.idxOf a < l.idxOf b → l.reverse.idxOf b < l.reverse.idxOf a)
        ∧ (l.idxOf b < l.idxOf a → l.reverse.idxOf a < l.reverse.idxOf b)
    have hsymm : Std.Symm Agree := ⟨fun _ _ h => ⟨h.2, h.1⟩⟩
    have hagree : l.dedup.Pairwise Agree := by
      refine ((pairwise_dedup l).and (heq ▸ pairwise_eraseDups l)).imp ?_
      rintro a b ⟨hlast, hfirst⟩
      exact ⟨fun _ => hlast, fun h => absurd h hfirst.asymm⟩
    have hne : a ≠ b := by
      rintro rfl
      exact hfirst.false
    exact (hagree.forall (List.mem_dedup.2 ha) (List.mem_dedup.2 hb) hne).1 hfirst
  · intro h
    have hfirst : l.eraseDups.Pairwise fun a b => l.reverse.idxOf b < l.reverse.idxOf a := by
      refine (pairwise_eraseDups l).imp_of_mem ?_
      intro a b ha hb
      exact h a (List.mem_eraseDups.1 ha) b (List.mem_eraseDups.1 hb)
    have hnodup : l.eraseDups.Nodup := by
      rw [eraseDups_eq_reverse_dedup, List.nodup_reverse]
      exact List.nodup_dedup _
    refine List.Perm.eq_of_pairwise ?_ (pairwise_dedup l) hfirst ?_
    · intro a b _ _ hab hba
      exact absurd hba hab.asymm
    · rw [List.perm_ext_iff_of_nodup (List.nodup_dedup l) hnodup]
      simp

/-- The entry in front is the first that the list names exactly if no other one is named for the
last time before it is. -/
theorem head?_dedup_cons_iff (a : α) (l : List α) :
    (a :: l).dedup.head? = some a
      ↔ ∀ b ∈ l, b ≠ a → (a :: l).reverse.idxOf b < (a :: l).reverse.idxOf a := by
  have hpairwise := pairwise_dedup (a :: l)
  have hmem : ∀ b, b ∈ (a :: l).dedup ↔ b ∈ a :: l := fun b => List.mem_dedup
  cases hdedup : (a :: l).dedup with
  | nil => simp at hdedup
  | cons first rest =>
    rw [hdedup] at hpairwise hmem
    rw [List.head?_cons, Option.some_inj]
    have hrest := (List.pairwise_cons.1 hpairwise).1
    constructor
    · rintro rfl b hb hne
      have hb' := (hmem b).2 (List.mem_cons_of_mem _ hb)
      exact hrest b ((List.mem_cons.1 hb').resolve_left hne)
    · intro h
      by_contra hne
      have hfirst := (hmem first).1 List.mem_cons_self
      have ha := (hmem a).2 List.mem_cons_self
      have hbehind := hrest a ((List.mem_cons.1 ha).resolve_left (Ne.symm hne))
      exact (h first ((List.mem_cons.1 hfirst).resolve_left hne) hne).asymm hbehind

end Places

/-! ## Lists of paths through their steps -/

namespace Path

theorem contains_iff (roots : List Path) (p : Path) :
    roots.contains p = true ↔ p.steps ∈ roots.map steps := by
  rw [List.contains_iff_exists_mem_beq, List.mem_map]
  exact exists_congr fun q => and_congr_right fun _ => (beq_iff p q).trans eq_comm

theorem beq_list_iff (roots others : List Path) :
    (roots == others) = true ↔ roots.map steps = others.map steps := by
  induction roots generalizing others with
  | nil => cases others <;> simp
  | cons p roots ih =>
    cases others with
    | nil => simp
    | cons q others => simp [beq_iff, ih]

theorem idxOf_eq (roots : List Path) (p : Path) :
    roots.idxOf p = (roots.map steps).idxOf p.steps := by
  unfold List.idxOf
  rw [List.findIdx_map]
  rfl

theorem map_eraseDups (roots : List Path) :
    roots.eraseDups.map steps = (roots.map steps).eraseDups := by
  induction hlength : roots.length using Nat.strongRecOn generalizing roots with
  | _ n ih =>
    cases roots with
    | nil => rfl
    | cons p roots =>
      have hshorter : (roots.filter fun q => !q == p).length < n := by
        rw [← hlength, List.length_cons]
        exact Nat.lt_succ_of_le (List.length_filter_le _ _)
      rw [List.eraseDups_cons, List.map_cons, List.map_cons, List.eraseDups_cons,
        ih _ hshorter _ rfl, List.filter_map]
      rfl

end Path

/-! ## The search order -/

namespace Scenery

/-- The list with each path at its last place only. -/
def lastPlaces : List Path → List Path
  | [] => []
  | p :: rest => if rest.contains p then lastPlaces rest else p :: lastPlaces rest

/-- Whether no path that is named first before another one is named last behind it. -/
def KeepsOrder (roots : List Path) : Prop :=
  ∀ p ∈ roots, ∀ q ∈ roots, roots.idxOf p < roots.idxOf q →
    roots.reverse.idxOf q < roots.reverse.idxOf p

instance (roots : List Path) : Decidable (KeepsOrder roots) :=
  inferInstanceAs (Decidable (∀ p ∈ roots, ∀ q ∈ roots, _ → _))

theorem map_lastPlaces (roots : List Path) :
    (lastPlaces roots).map Path.steps = (roots.map Path.steps).dedup := by
  induction roots with
  | nil => rfl
  | cons p roots ih =>
    unfold lastPlaces
    by_cases h : roots.contains p = true
    · rw [if_pos h, ih, List.map_cons, List.dedup_cons_of_mem ((Path.contains_iff roots p).1 h)]
    · rw [if_neg h, List.map_cons, ih, List.map_cons,
        List.dedup_cons_of_notMem (mt (Path.contains_iff roots p).2 h)]

/-- A list that repeats no path stays as it is. -/
theorem lastPlaces_eq_self {roots : List Path} (h : roots.Pairwise fun p q => (p == q) = false) :
    lastPlaces roots = roots := by
  induction roots with
  | nil => rfl
  | cons p roots ih =>
    obtain ⟨hp, hroots⟩ := List.pairwise_cons.1 h
    have hnew : ¬ roots.contains p = true := by
      rw [List.contains_iff_exists_mem_beq]
      rintro ⟨q, hq, hpq⟩
      simp [hp q hq] at hpq
    rw [lastPlaces, if_neg hnew, ih hroots]

theorem lastPlaces_beq_eraseDups_iff (roots : List Path) :
    (lastPlaces roots == roots.eraseDups) = true ↔ KeepsOrder roots := by
  rw [Path.beq_list_iff, map_lastPlaces, Path.map_eraseDups, dedup_eq_eraseDups_iff]
  simp [KeepsOrder, Path.idxOf_eq]

theorem head?_lastPlaces_iff (p : Path) (roots : List Path) :
    ((lastPlaces (p :: roots)).head? == some p) = true
      ↔ ∀ q ∈ roots, (q == p) = false →
        (p :: roots).reverse.idxOf q < (p :: roots).reverse.idxOf p := by
  have hhead := head?_dedup_cons_iff p.steps (roots.map Path.steps)
  rw [← List.map_cons, ← map_lastPlaces, List.head?_map] at hhead
  have hfront : ((lastPlaces (p :: roots)).head? == some p) = true
      ↔ (lastPlaces (p :: roots)).head?.map Path.steps = some p.steps := by
    cases (lastPlaces (p :: roots)).head? with
    | none => simp
    | some q => simp [Path.beq_iff]
  rw [hfront, hhead]
  simp [Path.idxOf_eq, ← Bool.not_eq_true, Path.beq_iff]

end Scenery

namespace TileCache

/-- Adding roots from the last to the first keeps each of them at its last place. -/
theorem roots_addRoots (settings : CacheSettings) (roots : List Path) :
    (roots.reverse.foldl (fun cache root => (cache.addRoot root).2) (empty settings)).roots
      = Scenery.lastPlaces roots := by
  rw [List.foldl_reverse]
  induction roots with
  | nil => rfl
  | cons p roots ih =>
    have hcontains : (Scenery.lastPlaces roots).contains p = roots.contains p := by
      rw [Bool.eq_iff_iff, Path.contains_iff, Path.contains_iff, Scenery.map_lastPlaces,
        List.mem_dedup]
    rw [List.foldr_cons, addRoot, Scenery.lastPlaces, ih, hcontains]
    split
    · exact ih
    · rfl

/-- A cache started on directories searches each of them at its last place in the list. That is the
list as it stands where it repeats nothing. Where it repeats roots, the search follows the order in
which the list first names them exactly if no root named before another is repeated behind its last
place, and the root named first has the highest priority exactly if no other one is named for the
last time before it is. -/
theorem start_order {isDirectory : Path → Bool} (settings : CacheSettings) {roots : List Path}
    (h : ∀ root ∈ roots, isDirectory root = true) :
    ∃ cache, start isDirectory settings roots = .ok cache
      ∧ cache.roots = Scenery.lastPlaces roots
      ∧ ((roots.Pairwise fun p q => (p == q) = false) → cache.roots = roots)
      ∧ ((cache.roots == roots.eraseDups) = true ↔ Scenery.KeepsOrder roots)
      ∧ ∀ first rest, roots = first :: rest →
        ((cache.roots.head? == some first) = true ↔ ∀ q ∈ rest, (q == first) = false →
          roots.reverse.idxOf q < roots.reverse.idxOf first) := by
  have hnone : roots.find? (!isDirectory ·) = none := by simpa using h
  refine ⟨_, by rw [start, hnone], roots_addRoots settings roots, ?_, ?_, ?_⟩
  · intro hdistinct
    rw [roots_addRoots, Scenery.lastPlaces_eq_self hdistinct]
  · rw [roots_addRoots, Scenery.lastPlaces_beq_eraseDups_iff]
  · rintro first rest rfl
    rw [roots_addRoots, Scenery.head?_lastPlaces_iff]

/-- A second spelling of the last root changes nothing but the spelling. -/
theorem start_order_respelled :
    (∀ root ∈ [⟨"high"⟩, ⟨"low"⟩, ⟨"low/"⟩], (fun _ : Path => true) root = true)
      ∧ ∃ cache, start (fun _ => true) .standard [⟨"high"⟩, ⟨"low"⟩, ⟨"low/"⟩] = .ok cache
        ∧ cache.roots.map Path.text = ["high", "low/"]
        ∧ (cache.roots == [⟨"high"⟩, ⟨"low"⟩, ⟨"low/"⟩].eraseDups) = true := by
  have h : ∀ root ∈ [⟨"high"⟩, ⟨"low"⟩, ⟨"low/"⟩], (fun _ : Path => true) root = true := by simp
  obtain ⟨cache, hstart, hroots, -, hiff, -⟩ := start_order .standard h
  refine ⟨h, cache, hstart, ?_, hiff.2 (by decide +kernel)⟩
  rw [hroots]
  decide +kernel

/-- A root that is named again behind another one is searched after it. -/
theorem start_demotes_repeated_root :
    ¬ ∀ (isDirectory : Path → Bool) (settings : CacheSettings) (roots : List Path),
      (∀ root ∈ roots, isDirectory root = true) →
        ∃ cache, start isDirectory settings roots = .ok cache
          ∧ (cache.roots == roots.eraseDups) = true := by
  intro h
  obtain ⟨cache, hstart, hroots⟩ :=
    h (fun _ => true) .standard [⟨"a"⟩, ⟨"b"⟩, ⟨"a"⟩] (by simp)
  obtain rfl := Except.ok.inj hstart
  revert hroots
  decide +kernel

end TileCache

end Orthomosaic
