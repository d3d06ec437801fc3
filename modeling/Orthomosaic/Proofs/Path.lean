import Orthomosaic.Path
import Orthomosaic.Proofs.Text.Trimmed

/-!
# The steps of joined paths

Two paths are equal when they have the same steps. Where a path is taken from another and starts with a
name, its steps come behind the other's (`Path.steps_join`), whether or not that one ends with a separator,
and also if it is empty: a leading dot is the one piece that counts at the start of a path only.
-/

namespace Orthomosaic.Path

open Text

theorem beq_iff (p q : Path) : (p == q) = true ↔ p.steps = q.steps :=
  beq_iff_eq (a := p.steps) (b := q.steps)

instance : EquivBEq Path where
  rfl {p} := (beq_iff p p).2 rfl
  symm {p q} h := (beq_iff q p).2 ((beq_iff p q).1 h).symm
  trans {p q r} h h' := (beq_iff p r).2 (((beq_iff p q).1 h).trans ((beq_iff q r).1 h'))

/-- A path that starts with a name: its first character is neither a separator nor a dot. -/
def StartsWithName (p : Path) : Prop :=
  ∃ c cs, p.text.toList = c :: cs ∧ c ≠ '/' ∧ c ≠ '.'

variable {p q joined : Path} {cs rest : List Char}

theorem StartsWithName.isAbsolute_eq_false (h : p.StartsWithName) : p.isAbsolute = false := by
  obtain ⟨c, cs, htext, hslash, -⟩ := h
  simp [isAbsolute, htext, hslash]

/-- The first piece of a path that starts with a name is no dot. -/
theorem StartsWithName.head?_ne_dot (h : p.StartsWithName) :
    (splitOn '/' p.text.toList).head? ≠ some ['.'] := by
  obtain ⟨c, cs, htext, hslash, hdot⟩ := h
  obtain ⟨piece, pieces, hs⟩ := List.exists_cons_of_ne_nil (splitOn_ne_nil '/' cs)
  rw [htext, splitOn, if_neg hslash, hs]
  simp [hdot]

/-- The steps of a path that starts with a name are those of its pieces. -/
theorem StartsWithName.steps_eq (h : p.StartsWithName) :
    p.steps = (splitOn '/' p.text.toList).filterMap stepOf? := by
  simp [steps, h.isAbsolute_eq_false, h.head?_ne_dot]

theorem stepOf?_cons {c : Char} (h : c ≠ '.') (cs : List Char) :
    stepOf? (c :: cs) = some (.entry (c :: cs)) := by
  simp [stepOf?, h]

/-- Behind a separator, only the pieces make steps. -/
theorem steps_of_separator (h : joined.text.toList = cs ++ '/' :: rest)
    (hp : p.text.toList = cs ++ ['/'] ∨ p.text.toList = cs ∧ cs ≠ []) :
    joined.steps = p.steps ++ (splitOn '/' rest).filterMap stepOf? := by
  obtain ⟨piece, pieces, hs⟩ := List.exists_cons_of_ne_nil (splitOn_ne_nil '/' cs)
  have hjoined : splitOn '/' (cs ++ '/' :: rest) = piece :: (pieces ++ splitOn '/' rest) := by
    rw [splitOn_append, hs, List.cons_append]
  have hsteps : ∀ others, (piece :: (pieces ++ others)).filterMap stepOf?
      = (piece :: pieces).filterMap stepOf? ++ others.filterMap stepOf? := fun others => by
    rw [← List.cons_append, List.filterMap_append]
  rcases hp with hp | ⟨hp, hne⟩
  · have hclosed : splitOn '/' (cs ++ ['/']) = piece :: (pieces ++ [[]]) := by
      rw [splitOn_append, hs, List.cons_append, splitOn]
    have hnone : [([] : List Char)].filterMap stepOf? = [] := rfl
    simp [steps, isAbsolute, h, hp, hjoined, hclosed, hsteps, hnone]
  · simp [steps, isAbsolute, h, hp, hjoined, hs, hsteps, List.head?_append_of_ne_nil _ hne]

/-- The steps of a path taken from another come behind the other's. -/
theorem steps_join (p : Path) (hq : q.StartsWithName) : (p.join q).steps = p.steps ++ q.steps := by
  rw [hq.steps_eq]
  unfold join
  rw [hq.isAbsolute_eq_false, Bool.false_or]
  by_cases hempty : p.text.isEmpty = true
  · have hp : p.steps = [] := by
      have htext : p.text = "" := by simpa using hempty
      simp [steps, isAbsolute, htext, splitOn, stepOf?]
    rw [if_pos hempty, hp, List.nil_append, hq.steps_eq]
  rw [if_neg hempty]
  by_cases hend : p.text.toList.getLast? = some '/'
  · obtain ⟨cs, hcs⟩ := List.getLast?_eq_some_iff.1 hend
    rw [if_pos (by simpa using hend)]
    have htext : (p.text ++ q.text).toList = cs ++ '/' :: q.text.toList := by simp [hcs]
    exact steps_of_separator htext (.inl hcs)
  · rw [if_neg (by simpa using hend)]
    have htext : (p.text ++ "/" ++ q.text).toList = p.text.toList ++ '/' :: q.text.toList := by simp
    exact steps_of_separator htext (.inr ⟨rfl, by simpa using hempty⟩)

end Orthomosaic.Path
