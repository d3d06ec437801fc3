import Mathlib.Data.List.Induction
import Orthomosaic.Proofs.Bounds.Union

/-!
# Rectangles that grow

A rectangle starts out empty and takes in points and other rectangles, one after the other. One step
keeps every point that is already inside (`GrowthStep.near_apply`) and brings in what it adds
(`GrowthStep.holds_apply`), so a whole run ends with a rectangle that holds everything added on the
way: `Bounds.grow_covers_every_prefix`.
-/

namespace Orthomosaic.Bounds

/-- One step of growth. -/
inductive GrowthStep where
  | expand (lon lat : ℚ)
  | absorb (box : Bounds ℚ)

namespace GrowthStep

/-- The rectangle after a step. -/
def apply (b : Bounds ℚ) : GrowthStep → Bounds ℚ
  | expand lon lat => b.expand lon lat
  | absorb box => b.absorb box

/-- Any point may be taken in, and any well-formed rectangle. -/
def Valid : GrowthStep → Prop
  | expand _ _ => True
  | absorb box => box.WellFormed

/-- The points that a step adds: the one taken in, as it is spelled, or every point of the
rectangle, however its longitude is spelled. -/
def Adds (lon lat : ℚ) : GrowthStep → Prop
  | expand x y => lon = x ∧ lat = y
  | absorb box => box.Holds lon lat

/-- What a step takes in, as a rectangle. -/
def box : GrowthStep → Bounds ℚ
  | expand lon lat => point lon lat
  | absorb box => box

variable {b : Bounds ℚ} {step : GrowthStep} {lon lat ε : ℚ}

theorem apply_eq (b : Bounds ℚ) (step : GrowthStep) : step.apply b = b.absorb step.box := by
  cases step <;> rfl

theorem Valid.wellFormed_box (h : step.Valid) : step.box.WellFormed := by
  cases step with
  | expand lon lat => exact wellFormed_point lon lat
  | absorb box => exact h

/-- What a step takes in holds the points that the step adds. -/
theorem Adds.holds_box (h : step.Adds lon lat) : step.box.Holds lon lat := by
  cases step with
  | expand x y =>
    obtain ⟨rfl, rfl⟩ := h
    exact holds_point lon lat
  | absorb box => exact h

theorem apply_of_isEmpty (hb : b.isEmpty = true) (h : step.Valid) : step.apply b = step.box := by
  rw [apply_eq]
  exact absorb_of_isEmpty_left hb h.wellFormed_box.isEmpty_eq_false

/-- A step leads to a well-formed rectangle, from the empty one and from a well-formed one. -/
theorem wellFormed_apply (hb : b.isEmpty = true ∨ b.WellFormed) (h : step.Valid) :
    (step.apply b).WellFormed := by
  rcases hb with hb | hb
  · rw [apply_of_isEmpty hb h]
    exact h.wellFormed_box
  · rw [apply_eq]
    exact hb.absorb h.wellFormed_box

/-- A step takes no point farther away. -/
theorem near_apply (hε : 0 ≤ ε) (hb : b.WellFormed) (h : step.Valid) (hp : b.Near ε lon lat) :
    (step.apply b).Near ε lon lat := by
  rw [apply_eq]
  exact hp.absorb_left hε hb h.wellFormed_box

/-- A step brings in the points that it adds. -/
theorem holds_apply (hb : b.isEmpty = true ∨ b.WellFormed) (h : step.Valid)
    (hp : step.Adds lon lat) : (step.apply b).Holds lon lat := by
  rcases hb with hb | hb
  · rw [apply_of_isEmpty hb h]
    exact hp.holds_box
  · rw [apply_eq]
    exact hp.holds_box.absorb_right (le_refl 0) hb h.wellFormed_box

end GrowthStep

/-! ## Runs -/

/-- The rectangle after a run from the empty one. -/
def grow (steps : List GrowthStep) : Bounds ℚ :=
  steps.foldl GrowthStep.apply empty

variable {steps before after : List GrowthStep} {lon lat ε : ℚ}

theorem grow_append_singleton (steps : List GrowthStep) (step : GrowthStep) :
    grow (steps ++ [step]) = step.apply (grow steps) := by
  rw [grow, List.foldl_append]
  rfl

/-- A run leaves the empty rectangle as it is or leads to a well-formed one. -/
theorem eq_nil_or_wellFormed_grow (h : ∀ step ∈ steps, step.Valid) :
    steps = [] ∨ (grow steps).WellFormed := by
  induction steps using List.reverseRecOn with
  | nil => exact .inl rfl
  | append_singleton steps step ih =>
    -- the last step meets the empty rectangle only if it is the first one
    right
    rw [grow_append_singleton]
    apply GrowthStep.wellFormed_apply _ (h step (by simp))
    rcases ih fun s hs => h s (by simp [hs]) with rfl | hwf
    · exact .inl isEmpty_empty
    · exact .inr hwf

/-- The two cases of a run, as a step needs them. -/
theorem isEmpty_or_wellFormed_grow (h : ∀ step ∈ steps, step.Valid) :
    (grow steps).isEmpty = true ∨ (grow steps).WellFormed := by
  rcases eq_nil_or_wellFormed_grow h with rfl | hwf
  · exact .inl isEmpty_empty
  · exact .inr hwf

/-- A run that goes on takes no point farther away. -/
theorem near_grow_append (hε : 0 ≤ ε) (h : ∀ step ∈ before ++ after, step.Valid)
    (hwf : (grow before).WellFormed) (hp : (grow before).Near ε lon lat) :
    (grow (before ++ after)).WellFormed ∧ (grow (before ++ after)).Near ε lon lat := by
  induction after using List.reverseRecOn with
  | nil =>
    rw [List.append_nil]
    exact ⟨hwf, hp⟩
  | append_singleton after step ih =>
    obtain ⟨ihwf, ihp⟩ := ih fun s hs => h s (by
      rcases List.mem_append.1 hs with hs | hs <;> simp [hs])
    have hstep : step.Valid := h step (by simp)
    rw [← List.append_assoc, grow_append_singleton]
    exact ⟨GrowthStep.wellFormed_apply (.inr ihwf) hstep,
      GrowthStep.near_apply hε ihwf hstep ihp⟩

/-- A run ends with a rectangle that holds what each of its steps added. -/
theorem holds_grow (h : ∀ step ∈ steps, step.Valid) {step : GrowthStep} (hs : step ∈ steps)
    (hp : step.Adds lon lat) : (grow steps).WellFormed ∧ (grow steps).Holds lon lat := by
  obtain ⟨before, after, rfl⟩ := List.append_of_mem hs
  have hbefore : ∀ s ∈ before, s.Valid := fun s hs => h s (by simp [hs])
  have hstep : step.Valid := h step (by simp)
  -- the step brings the point in, and the steps after it take it no farther away
  have hsplit : before ++ step :: after = (before ++ [step]) ++ after := by simp
  rw [hsplit] at h ⊢
  apply near_grow_append (le_refl 0) h <;> rw [grow_append_singleton]
  · exact GrowthStep.wellFormed_apply (isEmpty_or_wellFormed_grow hbefore) hstep
  · exact GrowthStep.holds_apply (isEmpty_or_wellFormed_grow hbefore) hstep hp

/-- Along a run from the empty rectangle, after every prefix of it: the rectangle is empty exactly
when nothing has been added yet and well-formed otherwise; every point added so far is inside and
has its texture coordinates within the picture; and what is inside then is inside at the end. -/
theorem grow_covers_every_prefix (hv : ∀ step ∈ steps, step.Valid) (hb : before <+: steps) :
    ((grow before).isEmpty = true ↔ before = []) ∧
      (before ≠ [] → (grow before).WellFormed) ∧
      (∀ step ∈ before, ∀ lon lat, step.Adds lon lat →
        (grow before).contains lon lat = true ∧
          (0 ≤ ((grow before).texCoord lon lat).1 ∧ ((grow before).texCoord lon lat).1 ≤ 1) ∧
          (0 ≤ ((grow before).texCoord lon lat).2 ∧ ((grow before).texCoord lon lat).2 ≤ 1)) ∧
      ∀ lon lat, (grow before).contains lon lat = true → (grow steps).contains lon lat = true := by
  obtain ⟨after, rfl⟩ := hb
  have hbefore : ∀ step ∈ before, step.Valid := fun s hs => hv s (by simp [hs])
  have hcases := eq_nil_or_wellFormed_grow hbefore
  refine ⟨⟨?_, ?_⟩, ?_, ?_, ?_⟩
  · intro hempty
    rcases hcases with hnil | hwf
    · exact hnil
    · rw [hwf.isEmpty_eq_false] at hempty
      exact absurd hempty (by decide)
  · rintro rfl
    exact isEmpty_empty
  · exact hcases.resolve_left
  · intro step hs lon lat hadds
    obtain ⟨hwf, hholds⟩ := holds_grow hbefore hs hadds
    refine ⟨hholds.contains hwf, ?_⟩
    rw [texCoord, hwf.isEmpty_eq_false]
    exact ⟨hholds.texU_mem, hholds.texV_mem⟩
  · intro lon lat hcontains
    rcases hcases with rfl | hwf
    · -- nothing is inside the empty rectangle
      have hempty : (grow []).isEmpty = true := isEmpty_empty
      rw [contains, if_pos hempty] at hcontains
      exact absurd hcontains (by decide)
    · have hnear := (contains_iff_near hwf).1 hcontains
      obtain ⟨hwf', hnear'⟩ := near_grow_append tolerance_pos.le hv hwf hnear
      exact (contains_iff_near hwf').2 hnear'

/-- A run across the antimeridian: a point at 170 degrees east and a rectangle that starts at 175
degrees west, before a point far away is taken in. -/
theorem grow_covers_across_antimeridian :
    (∀ step ∈ [.expand 170 10, .absorb ⟨-175, 10, 0, 5⟩, .expand (-90) (-20)],
        GrowthStep.Valid step) ∧
      [GrowthStep.expand 170 10, .absorb ⟨-175, 10, 0, 5⟩]
        <+: [.expand 170 10, .absorb ⟨-175, 10, 0, 5⟩, .expand (-90) (-20)] ∧
      (grow [.expand 170 10, .absorb ⟨-175, 10, 0, 5⟩]).WellFormed ∧
      (grow [.expand 170 10, .absorb ⟨-175, 10, 0, 5⟩]).contains (-168) 3 = true ∧
      (grow [.expand 170 10, .absorb ⟨-175, 10, 0, 5⟩, .expand (-90) (-20)]).contains (-168) 3
        = true := by
  have hbox : WellFormed (⟨-175, 10, 0, 5⟩ : Bounds ℚ) :=
    wellFormed_iff.2 ⟨by norm_num, by norm_num, by norm_num, by norm_num, by norm_num⟩
  have hv : ∀ step ∈ [.expand 170 10, .absorb ⟨-175, 10, 0, 5⟩, .expand (-90) (-20)],
      GrowthStep.Valid step := by
    simpa [GrowthStep.Valid] using hbox
  have hb : [GrowthStep.expand 170 10, .absorb ⟨-175, 10, 0, 5⟩]
      <+: [.expand 170 10, .absorb ⟨-175, 10, 0, 5⟩, .expand (-90) (-20)] := by
    simp
  have hadds : GrowthStep.Adds (-168) 3 (.absorb ⟨-175, 10, 0, 5⟩) :=
    ⟨⟨7, by norm_num, by norm_num, 0, by norm_num⟩, by norm_num, by norm_num⟩
  obtain ⟨-, hwf, hcovers, hgrows⟩ := grow_covers_every_prefix hv hb
  have hin := (hcovers (.absorb ⟨-175, 10, 0, 5⟩) (by simp) (-168) 3 hadds).1
  exact ⟨hv, hb, hwf (by simp), hin, hgrows (-168) 3 hin⟩

end Orthomosaic.Bounds
