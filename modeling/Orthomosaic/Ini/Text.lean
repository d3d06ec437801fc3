import Orthomosaic.Ini.Error
import Orthomosaic.Ini.Escape
import Orthomosaic.Text.Blank

/-!
# Texts and values

Keys, headings and values are stretches of text with escapes, each up to a delimiter of its own.
A value may be quoted, in part or as a whole.

Reading never adds to what is left of a text: `leftover_readText` and `leftover_readValue` say so.
-/

namespace Orthomosaic.Ini

open Text (isBlank trim trimEnd)

/-- A fault met while reading, and the text from its place on, which starts a line or does not. -/
structure Halt where
  fault : Fault
  left : List Char
  atLineStart : Bool

/-- What was read, and the text behind it. -/
abbrev Reading (α : Type) := Except Halt (α × List Char)

/-- A reading of which the result is changed. -/
def Reading.change {α β : Type} (f : α → β) : Reading α → Reading β
  | .ok (x, rest) => .ok (f x, rest)
  | .error e => .error e

/-- The fault of a code that denotes no character, met at the last of its four characters unless
something else ends it before. `more` of them follow the next one. A line break behind a backslash
counts, together with it, as one character, which no code holds. -/
def codeFault (d : Delimiter) (more : Nat) (atLineStart : Bool) : List Char → Halt
  | [] => ⟨.unexpectedEnd d, [], false⟩
  | '\\' :: '\n' :: rest =>
    match more with
    | 0 => ⟨.unknownCharacter, '\n' :: rest, false⟩
    | more + 1 => codeFault d more true rest
  | '\\' :: rest => ⟨.brokenCode rest.head?, rest, false⟩
  | c :: rest =>
    match more with
    | 0 => ⟨.unknownCharacter, c :: rest, atLineStart⟩
    | more + 1 => codeFault d more (c == '\n') rest

/-- The text up to its delimiter, with escapes resolved. A line break behind a backslash vanishes
with it. -/
def readText (d : Delimiter) : List Char → Reading (List Char)
  | [] => if d.closedByEnd then .ok ([], []) else .error ⟨.unexpectedEnd d, [], false⟩
  | '\\' :: '\n' :: rest => readText d rest
  | '\\' :: 'x' :: h₁ :: h₂ :: h₃ :: h₄ :: rest =>
    match charOfCode? [h₁, h₂, h₃, h₄] with
    | some c => (readText d rest).change (c :: ·)
    | none => .error (codeFault d 3 false (h₁ :: h₂ :: h₃ :: h₄ :: rest))
  | '\\' :: 'x' :: rest => .error (codeFault d 3 false rest)
  | '\\' :: c :: rest => (readText d rest).change (unescape c :: ·)
  | c :: rest => if d.closes c then .ok ([], c :: rest) else (readText d rest).change (c :: ·)

/-- How much text is left after a reading, whether it succeeds or not. -/
def leftover {α : Type} : Reading α → Nat
  | .ok (_, rest) => rest.length
  | .error e => e.left.length

theorem length_left_codeFault (d : Delimiter) (more : Nat) (atLineStart : Bool) (cs : List Char) :
    (codeFault d more atLineStart cs).left.length ≤ cs.length := by
  fun_induction codeFault d more atLineStart cs <;> simp only [List.length_cons, List.length_nil] <;>
    omega

/-- Changing a result changes nothing about what is left. -/
theorem leftover_change {α β : Type} (f : α → β) (r : Reading α) :
    leftover (r.change f) = leftover r := by
  cases r <;> rfl

/-- Reading a text leaves no more than there was, also where it fails. -/
theorem leftover_readText (d : Delimiter) (cs : List Char) :
    leftover (readText d cs) ≤ cs.length := by
  fun_induction readText d cs with
  | case1 => simp [leftover]
  | case2 => simp [leftover]
  | case3 rest ih => simp only [List.length_cons]; omega
  | case4 h₁ h₂ h₃ h₄ rest c hc ih => rw [leftover_change]; simp only [List.length_cons]; omega
  | case5 h₁ h₂ h₃ h₄ rest hc =>
    exact Nat.le_add_right_of_le (Nat.le_add_right_of_le (length_left_codeFault _ _ _ _))
  | case6 rest h =>
    exact Nat.le_add_right_of_le (Nat.le_add_right_of_le (length_left_codeFault _ _ _ _))
  | case7 c rest h₁ h₂ h₃ ih => rw [leftover_change]; simp only [List.length_cons]; omega
  | case8 => simp [leftover]
  | case9 c rest h₁ h₂ h₃ h₄ hc ih => rw [leftover_change]; simp only [List.length_cons]; omega

theorem length_readText {d : Delimiter} {cs part rest : List Char}
    (h : readText d cs = .ok (part, rest)) : rest.length ≤ cs.length := by
  have := leftover_readText d cs
  rwa [h] at this

theorem length_left_readText {d : Delimiter} {cs : List Char} {e : Halt}
    (h : readText d cs = .error e) : e.left.length ≤ cs.length := by
  have := leftover_readText d cs
  rwa [h] at this

/-- What is left of a line behind its leading blanks. -/
def skipLineBlanks (cs : List Char) : List Char :=
  cs.dropWhile fun c => isBlank c && c != '\n' && c != '\r'

/-- The quotation that a character opens. -/
def quotation? (c : Char) : Option Delimiter :=
  if c = '\x22' then some .doubleQuote
  else if c = '\x27' then some .singleQuote
  else none

/-- A value: quotations one behind the other, and the rest of the line without the blanks at its
ends; behind a quotation, those in front of it count. -/
def readValue (quoted : Bool) : List Char → Reading (List Char)
  | [] => .ok ([], [])
  | c :: cs =>
    match quotation? c with
    | none =>
      (readText .lineEnd (c :: cs)).change (if quoted then trimEnd else trim)
    | some q =>
      match _h : readText q cs with
      | .error e => .error e
      | .ok (part, rest) =>
        (readValue true (rest.drop 1)).change (part ++ ·)
termination_by cs => cs.length
decreasing_by
  have := length_readText _h
  simp only [List.length_drop, List.length_cons]
  omega

/-- Reading a value leaves no more than there was, also where it fails. -/
theorem leftover_readValue (quoted : Bool) (cs : List Char) :
    leftover (readValue quoted cs) ≤ cs.length := by
  fun_induction readValue quoted cs with
  | case1 => simp [leftover]
  | case2 quoted c cs h =>
    rw [leftover_change]
    exact leftover_readText _ _
  | case3 quoted c cs q hq e he =>
    have := length_left_readText he
    simp only [leftover, List.length_cons]
    omega
  | case4 quoted c cs q hq part rest h ih =>
    have := length_readText h
    rw [leftover_change]
    simp only [List.length_drop, List.length_cons] at ih ⊢
    omega

end Orthomosaic.Ini
