/-!
# Texts with separators

`Text.splitOn` cuts a text at every separator and `Text.joinWith` puts pieces together with one
between each two; `joinWith_splitOn` says that the second undoes the first.
-/

namespace Orthomosaic.Text

/-- The pieces of a text between separators; one more than there are separators. -/
def splitOn (separator : Char) : List Char → List (List Char)
  | [] => [[]]
  | c :: cs =>
    if c = separator then [] :: splitOn separator cs
    else
      match splitOn separator cs with
      | [] => [[c]]
      | piece :: pieces => (c :: piece) :: pieces

/-- Pieces with a separator between each two. -/
def joinWith (separator : Char) : List (List Char) → List Char
  | [] => []
  | [piece] => piece
  | piece :: pieces => piece ++ separator :: joinWith separator pieces

/-- Every text has at least one piece, be it empty. -/
theorem splitOn_ne_nil (separator : Char) (cs : List Char) : splitOn separator cs ≠ [] := by
  cases cs with
  | nil => simp [splitOn]
  | cons c cs =>
    unfold splitOn
    split
    · exact List.cons_ne_nil _ _
    · split <;> exact List.cons_ne_nil _ _

/-- Pieces put together again are the text that was cut. -/
theorem joinWith_splitOn (separator : Char) (cs : List Char) :
    joinWith separator (splitOn separator cs) = cs := by
  induction cs with
  | nil => rfl
  | cons c cs ih =>
    unfold splitOn
    split
    · next h =>
      obtain ⟨piece, pieces, hs⟩ := List.exists_cons_of_ne_nil (splitOn_ne_nil separator cs)
      rw [hs] at ih ⊢
      rw [joinWith, ih, h, List.nil_append]
      exact List.cons_ne_nil _ _
    · split
      · next hs => exact absurd hs (splitOn_ne_nil separator cs)
      · next piece pieces hs =>
        rw [hs] at ih
        cases pieces with
        | nil => exact congrArg (c :: ·) ih
        | cons q qs =>
          rw [joinWith] at ih ⊢
          · exact congrArg (c :: ·) ih
          · exact List.cons_ne_nil _ _
          · exact List.cons_ne_nil _ _

end Orthomosaic.Text
