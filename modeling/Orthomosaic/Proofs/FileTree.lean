import Orthomosaic.FileTree

/-!
# Files that were written

A file that was written is found at its path (`FileTree.find?_of_put`). The path leads through
directories only, and the place of the file is none of them, so that the way there is not changed by
what is put at its end. Whether a file can be written does not depend on what it is to hold.
-/

namespace Orthomosaic.FileTree

variable {β : Type} {tree written : FileTree β} {place : Place} {p : Path} {content : β}

/-! ## One place changed -/

/-- Elsewhere there stands what stood there before. -/
theorem entryAt?_insert_of_ne (tree : FileTree β) (entry : FileEntry β) {place other : Place}
    (h : other ≠ place) : (tree.insert place entry).entryAt? other = tree.entryAt? other := by
  have hfind : (tree.entries.filter (·.1 != place)).find? (·.1 == other)
      = tree.entries.find? (·.1 == other) := by
    rw [List.find?_filter]
    refine congrArg (List.find? · tree.entries) (funext fun e => ?_)
    by_cases he : e.1 = other
    · simp [he, h]
    · simp [he]
  simp [entryAt?, insert, Ne.symm h, hfind]

/-- A new entry stands at its place, unless a directory above the working one is there. -/
theorem entryAt?_insert_self (tree : FileTree β) (entry : FileEntry β)
    (h : place.isSuffixOf tree.here = false) :
    (tree.insert place entry).entryAt? place = some entry := by
  simp [entryAt?, insert, h]

/-- A directory stays where it is when something is put where none was. -/
theorem isDirectoryAt_insert (entry : FileEntry β) {other : Place}
    (hplace : tree.isDirectoryAt place = false) (h : tree.isDirectoryAt other = true) :
    (tree.insert place entry).isDirectoryAt other = true := by
  have hne : other ≠ place := by
    rintro rfl
    rw [h] at hplace
    cases hplace
  unfold isDirectoryAt at h ⊢
  rwa [entryAt?_insert_of_ne tree entry hne]

/-- So does every step through directories. -/
theorem step?_insert (entry : FileEntry β) {other reached : Place} {step : PathStep}
    (hplace : tree.isDirectoryAt place = false) (h : tree.step? other step = some reached) :
    (tree.insert place entry).step? other step = some reached := by
  unfold step? at h ⊢
  by_cases hother : tree.isDirectoryAt other = true
  · rw [if_pos hother] at h
    rwa [if_pos (isDirectoryAt_insert entry hplace hother)]
  · rw [if_neg hother] at h
    cases h

/-- A way through directories leads to its end also when something is put there. -/
theorem foldlM_step?_insert (entry : FileEntry β) (hplace : tree.isDirectoryAt place = false)
    {steps : List PathStep} {other reached : Place}
    (h : steps.foldlM tree.step? other = some reached) :
    steps.foldlM (tree.insert place entry).step? other = some reached := by
  induction steps generalizing other with
  | nil => exact h
  | cons step steps ih =>
    rw [List.foldlM_cons] at h ⊢
    obtain ⟨next, hnext, hrest⟩ := Option.bind_eq_some_iff.1 h
    rw [step?_insert entry hplace hnext]
    exact ih hrest

/-! ## Writing -/

/-- What a file that is written needs: its path leads to a place, asks for no directory there, and
finds none. -/
theorem write?_eq_some_iff :
    tree.write? p content = some written
      ↔ ∃ place, tree.place? p = some place ∧ wantsDirectory p = false
        ∧ tree.isDirectoryAt place = false ∧ tree.insert place (.file content) = written := by
  unfold write?
  cases tree.place? p with
  | none => simp
  | some place => simp [and_assoc]

/-- A file that was written is found. -/
theorem find?_of_write? (h : tree.write? p content = some written) :
    written.find? p = some (.file content) := by
  obtain ⟨place, hplace, hfile, hfree, rfl⟩ := write?_eq_some_iff.1 h
  have hbelow : place.isSuffixOf tree.here = false := by
    rw [← Bool.not_eq_true]
    intro habove
    simp [isDirectoryAt, entryAt?, habove] at hfree
  have hway : (tree.insert place (.file content)).place? p = some place := by
    unfold place? at hplace ⊢
    split at hplace
    · cases hplace
    · next husable =>
      rw [if_neg husable]
      exact foldlM_step?_insert (.file content) hfree hplace
  unfold find?
  rw [hway, Option.bind_some, entryAt?_insert_self tree _ hbelow]
  exact if_neg (by simp [hfile])

/-- A file that was put is found. -/
theorem find?_of_put (h : (tree.put p content).1 = true) :
    (tree.put p content).2.find? p = some (.file content) := by
  unfold put at h ⊢
  split
  · next hdirectories =>
    rw [hdirectories] at h
    cases h
  · next below hdirectories =>
    rw [hdirectories] at h
    dsimp only at h
    cases hwrite : below.write? p content with
    | none =>
      rw [hwrite] at h
      cases h
    | some written => exact find?_of_write? hwrite

/-- Whether a file can be put does not depend on what it holds. -/
theorem put_fst_congr (tree : FileTree β) (p : Path) (content other : β) :
    (tree.put p content).1 = (tree.put p other).1 := by
  unfold put
  split
  · rfl
  · next below _ =>
    unfold write?
    cases below.place? p with
    | none => rfl
    | some place =>
      dsimp only
      by_cases hrefused : (wantsDirectory p || below.isDirectoryAt place) = true
      · rw [if_pos hrefused, if_pos hrefused]
      · rw [if_neg hrefused, if_neg hrefused]

end Orthomosaic.FileTree
