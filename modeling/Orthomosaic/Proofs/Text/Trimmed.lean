import Mathlib.Data.List.Basic
import Mathlib.Data.List.TakeWhile
import Orthomosaic.Text.Blank
import Orthomosaic.Text.Split

/-!
# Trimmed texts and lists of them

A text that does not begin or end with a blank is left as it is by trimming, and pieces without the
separator among their characters come back when the text that joins them is cut.
-/

namespace Orthomosaic.Text

variable {cs : List Char} {separator : Char} {pieces : List (List Char)}

/-- The visible ASCII characters are no blanks. -/
theorem isBlank_of_visible {c : Char} (h0 : 32 < c.toNat) (h1 : c.toNat < 127) :
    isBlank c = false := by
  unfold isBlank
  simp only [Bool.or_eq_false_iff, Bool.and_eq_false_iff, decide_eq_false_iff_not,
    beq_eq_false_iff_ne]
  omega

/-! ## Blanks at the ends -/

theorem trimStart_eq_self_iff (cs : List Char) :
    trimStart cs = cs ↔ ∀ c, cs.head? = some c → isBlank c = false := by
  cases cs with
  | nil => simp [trimStart]
  | cons c cs =>
    unfold trimStart
    by_cases h : isBlank c = true
    · have hshort := (List.dropWhile_suffix (l := cs) isBlank).length_le
      have hne : cs.dropWhile isBlank ≠ c :: cs := by
        intro heq
        rw [heq, List.length_cons] at hshort
        omega
      simp [h, hne]
    · simp [h]

theorem trimEnd_eq_self_iff (cs : List Char) :
    trimEnd cs = cs ↔ ∀ c, cs.getLast? = some c → isBlank c = false := by
  have h := trimStart_eq_self_iff cs.reverse
  rw [List.head?_reverse] at h
  rw [← h, ← List.reverse_inj, trimEnd, List.reverse_reverse]
  rfl

/-- Trimming leaves a text as it is exactly if no blank stands at its ends. -/
theorem trim_eq_self_iff :
    trim cs = cs ↔ (∀ c, cs.head? = some c → isBlank c = false)
      ∧ ∀ c, cs.getLast? = some c → isBlank c = false := by
  rw [← trimStart_eq_self_iff, ← trimEnd_eq_self_iff]
  unfold trim
  constructor
  · intro h
    have hstart : (trimStart cs).length ≤ cs.length := (List.dropWhile_suffix isBlank).length_le
    have hend : (trimEnd (trimStart cs)).length ≤ (trimStart cs).length := by
      unfold trimEnd
      rw [List.length_reverse]
      simpa using (List.dropWhile_suffix (l := (trimStart cs).reverse) isBlank).length_le
    rw [h] at hend
    have hsame : trimStart cs = cs :=
      (List.dropWhile_suffix isBlank).eq_of_length (Nat.le_antisymm hstart hend)
    exact ⟨hsame, by rwa [hsame] at h⟩
  · rintro ⟨hstart, hend⟩
    rw [hstart, hend]

theorem trim_of_forall (h : ∀ c ∈ cs, isBlank c = false) : trim cs = cs :=
  trim_eq_self_iff.2
    ⟨fun c hc => h c (List.mem_of_head? hc), fun c hc => h c (List.mem_of_getLast? hc)⟩

/-- Blanks around a trimmed text are taken off. -/
theorem trim_append_blanks {lead trail : List Char} (hlead : ∀ c ∈ lead, isBlank c = true)
    (htrail : ∀ c ∈ trail, isBlank c = true) (h : trim cs = cs) :
    trim (lead ++ cs ++ trail) = cs := by
  obtain ⟨hhead, hlast⟩ := trim_eq_self_iff.1 h
  have hstart : trimStart (lead ++ cs ++ trail) = trimStart (cs ++ trail) := by
    rw [List.append_assoc]
    exact List.dropWhile_append_of_pos hlead
  have hend : trimEnd (cs ++ trail) = trimEnd cs := by
    unfold trimEnd
    rw [List.reverse_append, List.dropWhile_append_of_pos (by simpa using htrail)]
  rw [trim, hstart]
  cases cs with
  | nil =>
    have hblank : trimStart trail = [] := List.dropWhile_eq_nil_iff.2 htrail
    rw [List.nil_append, hblank]
    rfl
  | cons c cs =>
    rw [(trimStart_eq_self_iff _).2 (by simpa using hhead), hend]
    exact (trimEnd_eq_self_iff _).2 hlast

/-- Behind the blanks at its start, a text does not begin with one. -/
theorem isBlank_of_head?_trimStart {c : Char} (h : (trimStart cs).head? = some c) :
    isBlank c = false := by
  have hhead := List.head?_dropWhile_not isBlank cs
  rw [show (cs.dropWhile isBlank).head? = some c from h] at hhead
  exact hhead

/-- What is left by trimming is not trimmed further. -/
theorem trim_trim (cs : List Char) : trim (trim cs) = trim cs := by
  rw [trim_eq_self_iff]
  constructor
  · intro c hc
    have hinitial : trim cs <+: trimStart cs := by
      have hsuffix := List.dropWhile_suffix (l := (trimStart cs).reverse) isBlank
      simpa [trim, trimEnd] using List.reverse_prefix.2 hsuffix
    obtain ⟨rest, hrest⟩ := hinitial
    have hhead : (trimStart cs).head? = some c := by
      rw [← hrest, List.head?_append, hc]
      rfl
    exact isBlank_of_head?_trimStart hhead
  · intro c hc
    rw [trim, trimEnd, List.getLast?_reverse] at hc
    exact isBlank_of_head?_trimStart hc

theorem trim_sublist (cs : List Char) : (trim cs).Sublist cs := by
  have hend : (trim cs).reverse.Sublist (trimStart cs).reverse := by
    unfold trim trimEnd
    rw [List.reverse_reverse]
    exact List.dropWhile_sublist isBlank
  exact (List.reverse_sublist.1 hend).trans (List.dropWhile_sublist isBlank)

/-- Behind a trimmed text, only the end of what is appended matters. -/
theorem trim_append {tail : List Char} (hne : cs ≠ []) (h : trim cs = cs)
    (htail : ∀ c, tail.getLast? = some c → isBlank c = false) : trim (cs ++ tail) = cs ++ tail := by
  obtain ⟨hhead, hlast⟩ := trim_eq_self_iff.1 h
  rw [trim_eq_self_iff, List.head?_append_of_ne_nil _ hne]
  refine ⟨hhead, fun c hc => ?_⟩
  by_cases hnil : tail = []
  · rw [hnil, List.append_nil] at hc
    exact hlast c hc
  · rw [List.getLast?_append_of_ne_nil _ hnil] at hc
    exact htail c hc

/-! ## Pieces and separators -/

theorem splitOn_of_notMem (h : separator ∉ cs) : splitOn separator cs = [cs] := by
  induction cs with
  | nil => rfl
  | cons c cs ih =>
    rw [List.mem_cons, not_or] at h
    rw [splitOn, if_neg (Ne.symm h.1), ih h.2]

/-- A separator stands between the pieces in front of it and those behind it. -/
theorem splitOn_append (separator : Char) (cs rest : List Char) :
    splitOn separator (cs ++ separator :: rest) = splitOn separator cs ++ splitOn separator rest := by
  induction cs with
  | nil => simp [splitOn]
  | cons c cs ih =>
    rw [List.cons_append, splitOn, splitOn, ih]
    split
    · rfl
    · obtain ⟨piece, pieces, hs⟩ := List.exists_cons_of_ne_nil (splitOn_ne_nil separator cs)
      rw [hs]
      rfl

theorem splitOn_append_cons (h : separator ∉ cs) (rest : List Char) :
    splitOn separator (cs ++ separator :: rest) = cs :: splitOn separator rest := by
  rw [splitOn_append, splitOn_of_notMem h, List.singleton_append]

/-- What stands in front without a separator belongs to the first piece. -/
theorem splitOn_append_of_notMem {rest piece : List Char} {others : List (List Char)}
    (h : separator ∉ cs) (hrest : splitOn separator rest = piece :: others) :
    splitOn separator (cs ++ rest) = (cs ++ piece) :: others := by
  induction cs with
  | nil => exact hrest
  | cons c cs ih =>
    rw [List.mem_cons, not_or] at h
    rw [List.cons_append, splitOn, if_neg (Ne.symm h.1), ih h.2]
    rfl

/-- No piece between separators has one in it. -/
theorem notMem_of_mem_splitOn {piece : List Char} (h : piece ∈ splitOn separator cs) :
    separator ∉ piece := by
  induction cs generalizing piece with
  | nil =>
    obtain rfl := List.mem_singleton.1 h
    exact List.not_mem_nil
  | cons c cs ih =>
    obtain ⟨first, rest, hs⟩ := List.exists_cons_of_ne_nil (splitOn_ne_nil separator cs)
    rw [splitOn, hs] at h
    split at h
    · rcases List.mem_cons.1 h with rfl | h
      · exact List.not_mem_nil
      · exact ih (hs ▸ h)
    · next hc =>
      rcases List.mem_cons.1 h with rfl | h
      · rw [List.mem_cons, not_or]
        exact ⟨Ne.symm hc, ih (hs ▸ List.mem_cons_self)⟩
      · exact ih (hs ▸ List.mem_cons_of_mem _ h)

/-- Pieces come back from the text that joins them. -/
theorem splitOn_joinWith (hne : pieces ≠ []) (h : ∀ piece ∈ pieces, separator ∉ piece) :
    splitOn separator (joinWith separator pieces) = pieces := by
  induction pieces with
  | nil => exact absurd rfl hne
  | cons piece rest ih =>
    obtain ⟨hpiece, hrest⟩ := List.forall_mem_cons.1 h
    cases rest with
    | nil => exact splitOn_of_notMem hpiece
    | cons next rest =>
      rw [joinWith, splitOn_append_cons hpiece, ih (List.cons_ne_nil _ _) hrest]
      exact List.cons_ne_nil _ _

/-- A character of joined pieces is one of theirs or the separator. -/
theorem mem_joinWith {c : Char} (h : c ∈ joinWith separator pieces) :
    c = separator ∨ ∃ piece ∈ pieces, c ∈ piece := by
  induction pieces with
  | nil => cases h
  | cons piece rest ih =>
    cases rest with
    | nil => exact .inr ⟨piece, List.mem_cons_self, h⟩
    | cons next rest =>
      rw [joinWith, List.mem_append, List.mem_cons] at h
      · rcases h with hc | hc | hc
        · exact .inr ⟨piece, List.mem_cons_self, hc⟩
        · exact .inl hc
        · rcases ih hc with hsep | ⟨other, hother, hmem⟩
          · exact .inl hsep
          · exact .inr ⟨other, List.mem_cons_of_mem _ hother, hmem⟩
      · exact List.cons_ne_nil _ _

/-- Joined pieces begin as the first of them does. -/
theorem head?_joinWith (separator : Char) {piece : List Char} (hne : piece ≠ [])
    (rest : List (List Char)) :
    (joinWith separator (piece :: rest)).head? = piece.head? := by
  cases rest with
  | nil => rfl
  | cons next rest =>
    rw [joinWith, List.head?_append_of_ne_nil _ hne]
    exact List.cons_ne_nil _ _

/-- Joined pieces end as the last of them does. -/
theorem getLast?_joinWith (hne : ∀ piece ∈ pieces, piece ≠ []) :
    (joinWith separator pieces).getLast? = pieces.getLast?.bind List.getLast? := by
  induction pieces with
  | nil => rfl
  | cons piece rest ih =>
    obtain ⟨-, hrest⟩ := List.forall_mem_cons.1 hne
    cases rest with
    | nil => rfl
    | cons next rest =>
      have hnonempty : joinWith separator (next :: rest) ≠ [] := by
        intro hnil
        have hhead := head?_joinWith separator (hrest next List.mem_cons_self) rest
        rw [hnil] at hhead
        exact hrest next List.mem_cons_self (List.head?_eq_none_iff.1 hhead.symm)
      rw [joinWith, List.getLast?_append_of_ne_nil _ (List.cons_ne_nil _ _),
        List.getLast?_cons_of_ne_nil hnonempty, ih hrest, List.getLast?_cons_cons]
      exact List.cons_ne_nil _ _

/-- Trimmed pieces make a trimmed text. -/
theorem trim_joinWith (hne : ∀ piece ∈ pieces, piece ≠ [])
    (h : ∀ piece ∈ pieces, trim piece = piece) :
    trim (joinWith separator pieces) = joinWith separator pieces := by
  cases pieces with
  | nil => rfl
  | cons piece rest =>
    rw [trim_eq_self_iff]
    constructor
    · intro c hc
      rw [head?_joinWith separator (hne piece List.mem_cons_self)] at hc
      exact (trim_eq_self_iff.1 (h piece List.mem_cons_self)).1 c hc
    · intro c hc
      rw [getLast?_joinWith hne] at hc
      obtain ⟨last, hlast, hc⟩ := Option.bind_eq_some_iff.1 hc
      exact (trim_eq_self_iff.1 (h last (List.mem_of_getLast? hlast))).2 c hc

end Orthomosaic.Text
