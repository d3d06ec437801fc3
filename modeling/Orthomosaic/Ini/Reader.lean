import Orthomosaic.Ini.Document
import Orthomosaic.Ini.Text

/-!
# Reading documents

A text is read item by item: a comment, a heading in brackets, an entry, or a line break. Behind
each item blanks are passed over, up to the indentation of a line. A key and a heading may go on
over several lines; a value ends with its line, except inside quotes and behind a backslash.

A comment starts its line. On an indented line what looks like a comment is the key of an entry,
and if the key of such a line finds no separator, the line says nothing.

`length_readItem` says that an item takes at least one character from the text, so that reading
comes to an end.
-/

namespace Orthomosaic.Ini

open Text (isBlank trim)

/-- The rest of an entry, from the separator behind its key on. -/
def readEntry (key cs : List Char) : Reading Item :=
  if trim key = [] then .error ⟨.missingKey, cs, false⟩
  else (readValue false (skipLineBlanks (cs.drop 1))).change fun value => .entry ⟨trim key, value⟩

/-- The rest of a heading, from behind its opening bracket on. -/
def readHeading (cs : List Char) : Reading Item :=
  match readText .bracket cs with
  | .ok (name, rest) => .ok (.heading (trim name), rest.drop 1)
  | .error e => .error e

/-- Whether a character ends a line. -/
def isLineBreak (c : Char) : Bool :=
  c == '\n' || c == '\r'

/-- Whether a character indents a line. -/
def isIndent (c : Char) : Bool :=
  c == ' ' || c == '\t'

/-- What one item says and leaves behind, which starts a line or does not. -/
structure Step where
  item : Option Item
  atLineStart : Bool
  rest : List Char

/-- The step to the next item, over blanks. It stops at the indentation of a line. -/
def passBlanks (item : Option Item) (atLineStart : Bool) : List Char → Step
  | [] => ⟨item, atLineStart, []⟩
  | c :: cs =>
    if isLineBreak c then
      if cs.head?.any isIndent then ⟨item, c == '\n', cs⟩ else passBlanks item (c == '\n') cs
    else if isBlank c then passBlanks item false cs
    else ⟨item, atLineStart, c :: cs⟩

/-- The step behind a reading. -/
def stepBehind : Reading Item → Except Halt Step
  | .ok (item, rest) => .ok (passBlanks (some item) false rest)
  | .error e => .error e

/-- The step over a comment, from its mark on. -/
def readComment (atLineStart : Bool) (cs : List Char) : Except Halt Step :=
  if atLineStart then .ok (passBlanks none true ((cs.dropWhile (· != '\n')).drop 1))
  else .error ⟨.inlineComment, cs, false⟩

/-- The step over what stands behind the indentation of a line. Behind a line of nothing else,
blanks are not passed over. -/
def readIndented (cs : List Char) : Except Halt Step :=
  match cs with
  | [] => .ok ⟨none, false, []⟩
  | c :: rest =>
    if c = '[' then stepBehind (readHeading rest)
    else if isLineBreak c then .ok ⟨none, c == '\n', rest⟩
    else
      match readText .separator cs with
      | .error e => .ok (passBlanks none e.atLineStart e.left)
      | .ok (key, rest) => stepBehind (readEntry key rest)

/-- The step over one item. -/
def readItem (atLineStart : Bool) (cs : List Char) : Except Halt Step :=
  match cs with
  | [] => .ok ⟨none, atLineStart, []⟩
  | c :: rest =>
    if c = ';' ∨ c = '#' then readComment atLineStart cs
    else if c = '[' then stepBehind (readHeading rest)
    else if isLineBreak c then .ok (passBlanks none (c == '\n') rest)
    else if isIndent c then readIndented (rest.dropWhile isIndent)
    else
      match readText .separator cs with
      | .error e => .error e
      | .ok (key, rest) => stepBehind (readEntry key rest)

theorem length_dropWhile_le {α : Type} (p : α → Bool) (cs : List α) :
    (cs.dropWhile p).length ≤ cs.length :=
  (List.dropWhile_suffix p).length_le

/-- Passing over blanks leaves no more than there was. -/
theorem length_passBlanks (item : Option Item) (atLineStart : Bool) (cs : List Char) :
    (passBlanks item atLineStart cs).rest.length ≤ cs.length := by
  induction cs generalizing atLineStart with
  | nil => simp [passBlanks]
  | cons c cs ih =>
    unfold passBlanks
    split
    · split
      · simp
      · exact Nat.le_succ_of_le (ih _)
    · split
      · exact Nat.le_succ_of_le (ih _)
      · simp

/-- The step behind a reading leaves no more than the reading does. -/
theorem length_stepBehind {r : Reading Item} {s : Step} (h : stepBehind r = .ok s) :
    s.rest.length ≤ leftover r := by
  match r with
  | .error e => exact absurd h (by simp [stepBehind])
  | .ok (item, rest) =>
    cases Except.ok.inj h
    exact length_passBlanks _ _ _

/-- Reading a heading leaves no more than there was, also where it fails. -/
theorem leftover_readHeading (cs : List Char) : leftover (readHeading cs) ≤ cs.length := by
  have h := leftover_readText .bracket cs
  unfold readHeading
  split
  · next name rest hr =>
    rw [hr] at h
    simp only [leftover, List.length_drop] at h ⊢
    omega
  · next e he =>
    rw [he] at h
    exact h

/-- The step over the rest of an entry takes at least its separator. -/
theorem length_stepBehind_readEntry {key cs : List Char} {s : Step}
    (h : stepBehind (readEntry key cs) = .ok s) : s.rest.length ≤ cs.length - 1 := by
  have hs := length_stepBehind h
  unfold readEntry at h hs
  split at h
  · exact absurd h (by simp [stepBehind])
  · next hk =>
    rw [if_neg hk, leftover_change] at hs
    have hv := leftover_readValue false (skipLineBlanks (cs.drop 1))
    have hd := length_dropWhile_le (fun c => isBlank c && c != '\n' && c != '\r') (cs.drop 1)
    rw [List.length_drop] at hd
    exact Nat.le_trans hs (Nat.le_trans hv hd)

/-- The step behind an indentation leaves no more than there was. -/
theorem length_readIndented {cs : List Char} {s : Step} (h : readIndented cs = .ok s) :
    s.rest.length ≤ cs.length := by
  unfold readIndented at h
  split at h
  · cases Except.ok.inj h
    simp
  · next c rest =>
    split at h
    · have hs := length_stepBehind h
      have hr := leftover_readHeading rest
      rw [List.length_cons]
      omega
    · split at h
      · cases Except.ok.inj h
        simp
      · split at h
        · next e he =>
          cases Except.ok.inj h
          have hp := length_passBlanks none e.atLineStart e.left
          exact Nat.le_trans hp (length_left_readText he)
        · next key more hr =>
          have hs := length_stepBehind_readEntry h
          have ht := length_readText hr
          omega

/-- The step over a comment takes at least its mark. -/
theorem length_readComment {atLineStart : Bool} {c : Char} {cs : List Char} {s : Step}
    (hc : c ≠ '\n') (h : readComment atLineStart (c :: cs) = .ok s) : s.rest.length ≤ cs.length := by
  unfold readComment at h
  split at h
  · cases Except.ok.inj h
    refine Nat.le_trans (length_passBlanks _ _ _) ?_
    have hd := length_dropWhile_le (· != '\n') cs
    rw [List.dropWhile_cons_of_pos (by simpa using hc), List.length_drop]
    omega
  · exact absurd h (by simp)

/-- The step over an item takes at least one character, so that reading items comes to an end. -/
theorem length_readItem {atLineStart : Bool} {cs : List Char} {s : Step} (hcs : cs ≠ [])
    (h : readItem atLineStart cs = .ok s) : s.rest.length < cs.length := by
  match cs with
  | [] => exact absurd rfl hcs
  | c :: rest =>
    refine Nat.lt_succ_of_le ?_
    unfold readItem at h
    simp only at h
    split at h
    · next hc => exact length_readComment (by rcases hc with rfl | rfl <;> decide) h
    · split at h
      · exact Nat.le_trans (length_stepBehind h) (leftover_readHeading rest)
      · split at h
        · cases Except.ok.inj h
          exact length_passBlanks _ _ _
        · split at h
          · exact Nat.le_trans (length_readIndented h) (length_dropWhile_le _ _)
          · split at h
            · exact absurd h (by simp)
            · next key more hr =>
              have hs := length_stepBehind_readEntry h
              have ht := length_readText hr
              rw [List.length_cons] at ht
              omega

/-- The items of a text. -/
def readItems (atLineStart : Bool) (cs : List Char) : Except Halt (List Item) :=
  if _hcs : cs = [] then .ok []
  else
    match _h : readItem atLineStart cs with
    | .error e => .error e
    | .ok s => (readItems s.atLineStart s.rest).map (s.item.toList ++ ·)
termination_by cs.length
decreasing_by exact length_readItem _hcs _h

/-- The document that a text denotes. A byte order mark at its start is passed over. -/
def parse (text : List Char) : Except SyntaxError Document :=
  let body := if text.head? = some '\ufeff' then text.drop 1 else text
  match readItems true body with
  | .ok items => .ok (.ofItems items)
  | .error e => .error (.locate body e.left e.fault)

end Orthomosaic.Ini
