import Mathlib.Data.List.Induction
import Mathlib.Order.Bounds.Basic
import Orthomosaic.Proofs.Bounds.Union

/-!
# Hulls within half the globe

On the whole circle a union depends on the order of its parts: the narrowest arc around the first two
may lie on the side where the third one is not. This cannot happen when all parts lie in one arc of
less than half a turn. Going the other way round then takes more than half a turn, so a union always
keeps within the arc, where it is the hull of two intervals.

`Bounds.startIn` and `Bounds.endIn` measure a rectangle within the arc and `Bounds.IsHull` says which
rectangle is the hull of a list. The hull of two parts is their union (`Bounds.IsHull.absorb`), so
every way of putting a list together ends with its hull, and there is only one
(`Bounds.absorb_order_irrelevant`).
-/

namespace Orthomosaic.Bounds

open Scalar

/-! ## Rectangles in an arc -/

/-- A rectangle whose longitudes lie in the arc of a length that starts at a longitude. -/
def WithinArc (start length : ℚ) (b : Bounds ℚ) : Prop :=
  ∃ t, 0 ≤ t ∧ t + b.span ≤ length ∧ SameMeridian (start + t) b.west

/-- The way from the start of an arc to the western edge. -/
def startIn (start : ℚ) (b : Bounds ℚ) : ℚ :=
  eastward start b.west

/-- The way from the start of an arc to the eastern edge. -/
def endIn (start : ℚ) (b : Bounds ℚ) : ℚ :=
  b.startIn start + b.span

variable {a b : Bounds ℚ} {start length : ℚ}

theorem startIn_nonneg (start : ℚ) (b : Bounds ℚ) : 0 ≤ b.startIn start :=
  eastward_nonneg start b.west

theorem WellFormed.startIn_le_endIn (hb : b.WellFormed) (start : ℚ) :
    b.startIn start ≤ b.endIn start :=
  le_add_of_nonneg_right hb.zero_le_span

theorem sameMeridian_startIn (start : ℚ) (b : Bounds ℚ) :
    SameMeridian (start + b.startIn start) b.west :=
  sameMeridian_eastward start b.west

/-- A rectangle lies in an arc when it ends there, being measured from the start. -/
theorem withinArc_of_endIn_le (h : b.endIn start ≤ length) : b.WithinArc start length :=
  ⟨b.startIn start, startIn_nonneg start b, h, sameMeridian_startIn start b⟩

/-- A rectangle of an arc that leaves a gap ends in it. -/
theorem WithinArc.endIn_le (h : b.WithinArc start length) (hb : b.WellFormed)
    (hlength : length < 360) : b.endIn start ≤ length := by
  obtain ⟨t, ht0, ht1, ht⟩ := h
  have hspan := hb.zero_le_span
  have hstart : b.startIn start = t := eastward_eq_of ht ht0 (by linarith)
  unfold endIn
  rw [hstart]
  exact ht1

/-- The way from a rectangle to one that starts no earlier. -/
theorem eastward_of_startIn_le (h : a.startIn start ≤ b.startIn start) :
    eastward a.west b.west = b.startIn start - a.startIn start := by
  have ha := startIn_nonneg start a
  have hb : b.startIn start < 360 := eastward_lt start b.west
  refine eastward_eq_of ?_ (by linarith) (by linarith)
  have hmove := (sameMeridian_startIn start a).symm.add_right (b.startIn start - a.startIn start)
  rw [add_assoc, add_sub_cancel] at hmove
  exact hmove.trans (sameMeridian_startIn start b)

/-- The way from a rectangle around the globe to one that starts earlier. -/
theorem eastward_of_startIn_lt (h : b.startIn start < a.startIn start) :
    eastward a.west b.west = 360 - (a.startIn start - b.startIn start) := by
  have hb := startIn_nonneg start b
  have ha : a.startIn start < 360 := eastward_lt start a.west
  refine eastward_eq_of ?_ (by linarith) (by linarith)
  obtain ⟨m, hm⟩ := sameMeridian_startIn start a
  obtain ⟨n, hn⟩ := sameMeridian_startIn start b
  exact ⟨n - m - 1, by push_cast; linarith⟩

/-! ## The union of two parts -/

/-- The span of the arc that starts with the part that comes first. -/
theorem spanFrom_of_startIn_le (hlength : length < 360) (ha : a.endIn start ≤ length)
    (hb : b.endIn start ≤ length) (h : a.startIn start ≤ b.startIn start) :
    spanFrom a b = max (a.endIn start) (b.endIn start) - a.startIn start := by
  have ha0 := startIn_nonneg start a
  have hmax := max_le ha hb
  have hends : max a.span (b.startIn start - a.startIn start + b.span)
      = max (a.endIn start) (b.endIn start) - a.startIn start := by
    unfold endIn
    rw [sub_eq_add_neg (max _ _), max_add]
    congr 1 <;> ring
  rw [spanFrom_eq, eastward_of_startIn_le h, hends, min_eq_left (by linarith)]

/-- The arc that starts with the part that comes later goes around the rest of the globe. -/
theorem le_spanFrom_of_startIn_lt (ha : a.WellFormed) (hb : b.WellFormed)
    (ha' : a.endIn start ≤ length) (h : b.startIn start < a.startIn start) :
    360 - length ≤ spanFrom a b := by
  have hb0 := startIn_nonneg start b
  have hstart := ha.startIn_le_endIn start
  have hspan := hb.zero_le_span
  rw [spanFrom_eq, eastward_of_startIn_lt h]
  exact le_min (le_max_of_le_right (by linarith)) (by linarith)

/-- Parts that start together start at one western edge. -/
theorem west_eq_of_startIn_eq (ha : a.WellFormed) (hb : b.WellFormed)
    (h : a.startIn start = b.startIn start) : a.west = b.west := by
  obtain ⟨ha0, ha1, -⟩ := wellFormed_iff.1 ha
  obtain ⟨hb0, hb1, -⟩ := wellFormed_iff.1 hb
  have hsame := sameMeridian_startIn start a
  rw [h] at hsame
  exact (hsame.symm.trans (sameMeridian_startIn start b)).eq_of_lt (by linarith) (by linarith)

/-- The union of two parts of which the first starts no later starts with it. -/
theorem west_span_absorb_of_startIn_le (ha : a.WellFormed) (hb : b.WellFormed)
    (hlength : length < 180 - tolerance) (ha' : a.endIn start ≤ length)
    (hb' : b.endIn start ≤ length) (h : a.startIn start ≤ b.startIn start) :
    (a.absorb b).west = a.west
      ∧ (a.absorb b).span = max (a.endIn start) (b.endIn start) - a.startIn start := by
  have htol := tolerance_pos
  have hkeep := spanFrom_of_startIn_le (by linarith) ha' hb' h
  have hfirst : startsAtSecond a b = false := by
    rcases h.lt_or_eq with hlt | heq
    · have htake := le_spanFrom_of_startIn_lt hb ha hb' hlt
      have hmax := max_le ha' hb'
      have ha0 := startIn_nonneg start a
      refine startsAtSecond_of_lt ?_
      rw [hkeep]
      linarith
    · -- the two arcs are one, and it is not given up for itself
      have htake := spanFrom_of_startIn_le (by linarith) hb' ha' heq.ge
      rw [max_comm, ← heq] at htake
      rw [startsAtSecond_of_eq (hkeep.trans htake.symm), hkeep, htake,
        west_eq_of_startIn_eq ha hb heq]
      exact prefersSecond_self _ _
  rw [absorb_eq ha.isEmpty_eq_false hb.isEmpty_eq_false, hfirst]
  exact ⟨rfl, hkeep⟩

/-- The union of two parts of which the second starts earlier starts with that. -/
theorem west_span_absorb_of_startIn_lt (ha : a.WellFormed) (hb : b.WellFormed)
    (hlength : length < 180 - tolerance) (ha' : a.endIn start ≤ length)
    (hb' : b.endIn start ≤ length) (h : b.startIn start < a.startIn start) :
    (a.absorb b).west = b.west
      ∧ (a.absorb b).span = max (a.endIn start) (b.endIn start) - b.startIn start := by
  have htol := tolerance_pos
  have hb0 := startIn_nonneg start b
  have htake := spanFrom_of_startIn_le (by linarith) hb' ha' h.le
  have hkeep := le_spanFrom_of_startIn_lt ha hb ha' h
  have hmax := max_le hb' ha'
  have hsecond : startsAtSecond a b = true := by
    refine startsAtSecond_of_gt ?_
    rw [htake]
    linarith
  rw [max_comm] at htake
  rw [absorb_eq ha.isEmpty_eq_false hb.isEmpty_eq_false, hsecond]
  exact ⟨rfl, htake⟩

/-- The union of two parts goes from the earlier start, which is that of one of them, to the later
end. -/
theorem startIn_endIn_absorb (ha : a.WellFormed) (hb : b.WellFormed)
    (hlength : length < 180 - tolerance) (ha' : a.endIn start ≤ length)
    (hb' : b.endIn start ≤ length) :
    ((a.absorb b).west = a.west ∨ (a.absorb b).west = b.west)
      ∧ (a.absorb b).startIn start = min (a.startIn start) (b.startIn start)
      ∧ (a.absorb b).endIn start = max (a.endIn start) (b.endIn start) := by
  rcases le_or_gt (a.startIn start) (b.startIn start) with h | h
  · obtain ⟨hwest, hspan⟩ := west_span_absorb_of_startIn_le ha hb hlength ha' hb' h
    have hstart : (a.absorb b).startIn start = a.startIn start := congrArg (eastward start) hwest
    refine ⟨.inl hwest, by rw [hstart, min_eq_left h], ?_⟩
    rw [endIn, hstart, hspan]
    ring
  · obtain ⟨hwest, hspan⟩ := west_span_absorb_of_startIn_lt ha hb hlength ha' hb' h
    have hstart : (a.absorb b).startIn start = b.startIn start := congrArg (eastward start) hwest
    refine ⟨.inr hwest, by rw [hstart, min_eq_right h.le], ?_⟩
    rw [endIn, hstart, hspan]
    ring

/-! ## Hulls -/

/-- The rectangle that some rectangles of an arc span: from the western edge of the one that starts
first to the eastern edge of the one that ends last, and from the least south to the greatest
north. -/
structure IsHull (start : ℚ) (parts : Set (Bounds ℚ)) (hull : Bounds ℚ) : Prop where
  west_mem : hull.west ∈ west '' parts
  isLeast_start : IsLeast (startIn start '' parts) (hull.startIn start)
  isGreatest_end : IsGreatest (endIn start '' parts) (hull.endIn start)
  isLeast_south : IsLeast (south '' parts) hull.south
  isGreatest_north : IsGreatest (north '' parts) hull.north

variable {parts others : Set (Bounds ℚ)} {hull hull' : Bounds ℚ}

/-- A rectangle is the hull of itself. -/
theorem isHull_singleton (start : ℚ) (b : Bounds ℚ) : IsHull start {b} b := by
  refine ⟨⟨b, rfl, rfl⟩, ?_, ?_, ?_, ?_⟩ <;> rw [Set.image_singleton]
  · exact isLeast_singleton
  · exact isGreatest_singleton
  · exact isLeast_singleton
  · exact isGreatest_singleton

/-- The hull of all that makes up two hulls is their union. -/
theorem IsHull.absorb (hlength : length < 180 - tolerance) (h : IsHull start parts a)
    (h' : IsHull start others b) (ha : a.WellFormed) (hb : b.WellFormed)
    (ha' : a.endIn start ≤ length) (hb' : b.endIn start ≤ length) :
    IsHull start (parts ∪ others) (a.absorb b) := by
  obtain ⟨hwest, hstart, hend⟩ := startIn_endIn_absorb ha hb hlength ha' hb'
  have habsorb := absorb_eq ha.isEmpty_eq_false hb.isEmpty_eq_false
  refine ⟨?_, ?_, ?_, ?_, ?_⟩ <;> rw [Set.image_union]
  · rcases hwest with hwest | hwest <;> rw [hwest]
    · exact .inl h.west_mem
    · exact .inr h'.west_mem
  · rw [hstart]
    exact h.isLeast_start.union h'.isLeast_start
  · rw [hend]
    exact h.isGreatest_end.union h'.isGreatest_end
  · rw [habsorb]
    exact h.isLeast_south.union h'.isLeast_south
  · rw [habsorb]
    exact h.isGreatest_north.union h'.isGreatest_north

/-- There is only one hull. -/
theorem IsHull.unique (h : IsHull start parts hull) (h' : IsHull start parts hull')
    (hwf : hull.WellFormed) (hwf' : hull'.WellFormed) : hull = hull' := by
  have hstart := h.isLeast_start.unique h'.isLeast_start
  have hend := h.isGreatest_end.unique h'.isGreatest_end
  have hwest := west_eq_of_startIn_eq hwf hwf' hstart
  have hsouth := h.isLeast_south.unique h'.isLeast_south
  have hnorth := h.isGreatest_north.unique h'.isGreatest_north
  have hspan : hull.span = hull'.span := by
    unfold endIn at hend
    linarith
  cases hull
  cases hull'
  cases hwest
  cases hspan
  cases hsouth
  cases hnorth
  rfl

/-! ## Bracketings -/

/-- A way of putting rectangles together: in which order they are taken, and which unions are made
before which. -/
inductive Bracketing where
  | empty
  | box (b : Bounds ℚ)
  | absorb (first second : Bracketing)

namespace Bracketing

/-- The rectangles that are put together, in their order. -/
def boxes : Bracketing → List (Bounds ℚ)
  | empty => []
  | box b => [b]
  | absorb first second => first.boxes ++ second.boxes

/-- The rectangle that is made of them. -/
def value : Bracketing → Bounds ℚ
  | empty => Bounds.empty
  | box b => b
  | absorb first second => first.value.absorb second.value

@[simp] theorem boxes_absorb (first second : Bracketing) :
    (absorb first second).boxes = first.boxes ++ second.boxes :=
  rfl

@[simp] theorem value_absorb (first second : Bracketing) :
    (absorb first second).value = first.value.absorb second.value :=
  rfl

/-- Rectangles taken in one after the other. -/
def ofList (order : List (Bounds ℚ)) : Bracketing :=
  order.foldl (fun first b => .absorb first (.box b)) .empty

/-- The rectangles of a list, in its order. -/
theorem boxes_ofList (order : List (Bounds ℚ)) : (ofList order).boxes = order := by
  induction order using List.reverseRecOn with
  | nil => rfl
  | append_singleton order b ih =>
    unfold ofList at ih ⊢
    rw [List.foldl_append]
    exact congrArg (· ++ [b]) ih

/-- Taking in the rectangles of a list one after the other makes their union. -/
theorem value_ofList (order : List (Bounds ℚ)) : (ofList order).value = union order := by
  induction order using List.reverseRecOn with
  | nil => rfl
  | append_singleton order b ih =>
    unfold ofList union at ih ⊢
    rw [List.foldl_append, List.foldl_append]
    exact congrArg (Bounds.absorb · b) ih

/-- Whatever the order and the brackets, rectangles of one arc are put together to their hull, which
is in the stored form and lies in the arc; without any rectangle there is nothing in it. -/
theorem value_spec (hlength : length < 180 - tolerance) (m : Bracketing)
    (hboxes : ∀ b ∈ m.boxes, b.WellFormed ∧ b.WithinArc start length) :
    m.boxes = [] ∧ m.value = Bounds.empty
      ∨ IsHull start {b | b ∈ m.boxes} m.value ∧ m.value.WellFormed
        ∧ m.value.endIn start ≤ length := by
  have htol := tolerance_pos
  induction m with
  | empty => exact .inl ⟨rfl, rfl⟩
  | box b =>
    obtain ⟨hb, harc⟩ := hboxes b (List.mem_singleton_self b)
    refine .inr ⟨?_, hb, harc.endIn_le hb (by linarith)⟩
    have hset : {b' | b' ∈ (box b).boxes} = {b} := Set.ext fun _ => List.mem_singleton
    rw [hset]
    exact isHull_singleton start b
  | absorb first second ih ih' =>
    have hset : {b | b ∈ (absorb first second).boxes}
        = {b | b ∈ first.boxes} ∪ {b | b ∈ second.boxes} := Set.ext fun _ => List.mem_append
    -- a part without rectangles is absorbed, or absorbs, without effect
    rcases ih fun b hb => hboxes b (List.mem_append_left _ hb) with
      ⟨hnone, hempty⟩ | ⟨hhull, hwf, hend⟩ <;>
    rcases ih' fun b hb => hboxes b (List.mem_append_right _ hb) with
      ⟨hnone', hempty'⟩ | ⟨hhull', hwf', hend'⟩
    · left
      rw [boxes_absorb, value_absorb, hnone, hnone', hempty, hempty']
      exact ⟨rfl, absorb_of_isEmpty_right isEmpty_empty⟩
    · right
      rw [boxes_absorb, value_absorb, hnone, hempty, List.nil_append,
        absorb_of_isEmpty_left isEmpty_empty hwf'.isEmpty_eq_false]
      exact ⟨hhull', hwf', hend'⟩
    · right
      rw [boxes_absorb, value_absorb, hnone', hempty', List.append_nil,
        absorb_of_isEmpty_right isEmpty_empty]
      exact ⟨hhull, hwf, hend⟩
    · right
      have hle := max_le hend hend'
      rw [← (startIn_endIn_absorb hwf hwf' hlength hend hend').2.2] at hle
      rw [hset]
      exact ⟨hhull.absorb hlength hhull' hwf hwf' hend hend', hwf.absorb hwf', hle⟩

/-- Rectangles of one arc make one rectangle, whatever their order and the brackets. -/
theorem value_eq_of_perm (hlength : length < 180 - tolerance) {m m' : Bracketing}
    (hboxes : ∀ b ∈ m.boxes, b.WellFormed ∧ b.WithinArc start length)
    (hperm : m'.boxes.Perm m.boxes) : m'.value = m.value := by
  have hset : {b | b ∈ m'.boxes} = {b | b ∈ m.boxes} := Set.ext fun _ => hperm.mem_iff
  have hboxes' : ∀ b ∈ m'.boxes, b.WellFormed ∧ b.WithinArc start length :=
    fun b hb => hboxes b (hperm.mem_iff.1 hb)
  rcases value_spec hlength m hboxes with ⟨hnone, hempty⟩ | ⟨hhull, hwf, -⟩ <;>
  rcases value_spec hlength m' hboxes' with ⟨hnone', hempty'⟩ | ⟨hhull', hwf', -⟩
  · rw [hempty, hempty']
  · rw [hset, hnone] at hhull'
    obtain ⟨b, hb, -⟩ := hhull'.west_mem
    cases hb
  · rw [← hset, hnone'] at hhull
    obtain ⟨b, hb, -⟩ := hhull.west_mem
    cases hb
  · rw [hset] at hhull'
    exact hhull'.unique hhull hwf' hwf

end Bracketing

variable {boxes : List (Bounds ℚ)}

/-- The union of rectangles of one arc is their hull, which lies in the arc. -/
theorem isHull_union (hlength : length < 180 - tolerance) (hne : boxes ≠ [])
    (hboxes : ∀ b ∈ boxes, b.WellFormed ∧ b.WithinArc start length) :
    IsHull start {b | b ∈ boxes} (union boxes) ∧ (union boxes).WellFormed
      ∧ (union boxes).endIn start ≤ length := by
  have hspec := (Bracketing.ofList boxes).value_spec hlength (by rwa [Bracketing.boxes_ofList])
  rw [Bracketing.boxes_ofList, Bracketing.value_ofList] at hspec
  exact hspec.resolve_left fun h => hne h.1

/-- Rectangles that lie in one arc of less than half a turn, wherever it is, have a union that goes
from the western edge of the first in it to the eastern edge of the last, from the least south to the
greatest north. Taken in from the empty rectangle in any other order they make the same rectangle,
and so they do in any order and with any brackets. -/
theorem absorb_order_irrelevant (hlength : length < 180 - tolerance)
    (hboxes : ∀ b ∈ boxes, b.WellFormed ∧ b.WithinArc start length) :
    (boxes ≠ [] → (union boxes).WellFormed ∧ IsHull start {b | b ∈ boxes} (union boxes))
      ∧ (∀ order : List (Bounds ℚ), order.Perm boxes → union order = union boxes)
      ∧ ∀ m : Bracketing, m.boxes.Perm boxes → m.value = union boxes := by
  have hany : ∀ m : Bracketing, m.boxes.Perm boxes → m.value = union boxes := by
    intro m hperm
    rw [← Bracketing.value_ofList]
    rw [← Bracketing.boxes_ofList boxes] at hboxes hperm
    exact Bracketing.value_eq_of_perm hlength hboxes hperm
  refine ⟨fun hne => ?_, fun order hperm => ?_, hany⟩
  · obtain ⟨hhull, hwf, -⟩ := isHull_union hlength hne hboxes
    exact ⟨hwf, hhull⟩
  · rw [← Bracketing.value_ofList]
    rw [← Bracketing.boxes_ofList order] at hperm
    exact hany _ hperm

/-- Three rectangles around the antimeridian in two orders, the second with the last two united
first. -/
theorem absorb_order_irrelevant_at_antimeridian :
    (∀ b ∈ ([⟨170, 5, 0, 1⟩, ⟨-178, 3, -2, 0⟩, ⟨179, 2, 5, 6⟩] : List (Bounds ℚ)),
        b.WellFormed ∧ b.WithinArc 170 20)
      ∧ (20 : ℚ) < 180 - tolerance
      ∧ union [⟨170, 5, 0, 1⟩, ⟨-178, 3, -2, 0⟩, ⟨179, 2, 5, 6⟩] = (⟨170, 15, -2, 6⟩ : Bounds ℚ)
      ∧ union [⟨179, 2, 5, 6⟩, ⟨-178, 3, -2, 0⟩, ⟨170, 5, 0, 1⟩] = (⟨170, 15, -2, 6⟩ : Bounds ℚ)
      ∧ (⟨179, 2, 5, 6⟩ : Bounds ℚ).absorb (absorb ⟨170, 5, 0, 1⟩ ⟨-178, 3, -2, 0⟩)
        = ⟨170, 15, -2, 6⟩ := by
  have hboxes : ∀ b ∈ ([⟨170, 5, 0, 1⟩, ⟨-178, 3, -2, 0⟩, ⟨179, 2, 5, 6⟩] : List (Bounds ℚ)),
      b.WellFormed ∧ b.WithinArc 170 20 := by
    simp only [List.forall_mem_cons]
    refine ⟨⟨?_, withinArc_of_endIn_le ?_⟩, ⟨?_, withinArc_of_endIn_le ?_⟩,
      ⟨?_, withinArc_of_endIn_le ?_⟩, List.forall_mem_nil _⟩ <;> decide +kernel
  have hlength : (20 : ℚ) < 180 - tolerance := by decide +kernel
  have hunion : union [⟨170, 5, 0, 1⟩, ⟨-178, 3, -2, 0⟩, ⟨179, 2, 5, 6⟩]
      = (⟨170, 15, -2, 6⟩ : Bounds ℚ) :=
    (Bounds.mk.injEq ..).mpr (by decide +kernel)
  obtain ⟨-, horder, hbrackets⟩ := absorb_order_irrelevant hlength hboxes
  rw [hunion] at horder hbrackets
  refine ⟨hboxes, hlength, hunion, horder _ (List.reverse_perm [_, _, _]), ?_⟩
  exact hbrackets (.absorb (.box _) (.absorb (.box _) (.box _)))
    (List.perm_append_singleton _ _).symm

end Orthomosaic.Bounds
