import Mathlib.Order.Nat
import Orthomosaic.Proofs.Text.Trimmed
import Orthomosaic.Settings.Size

/-!
# Sizes that read back

A size is written as digits and the letters of a unit, and both are found again where the first letter
stands, with blanks around them or without (`Size.parse?_spelled`). An exact text takes the greatest unit
that divides the size (`Size.exists_exactText_eq`), but any that divides it would do: nothing is lost, and
the product of number and unit is the size itself, so it never exceeds 64 bits
(`Size.parse?_inverts_exactText`).
-/

namespace Orthomosaic

/-! ## Digits -/

namespace Decimal

variable {c : Char}

theorem isDigit_iff : isDigit c = true ↔ 48 ≤ c.toNat ∧ c.toNat ≤ 57 := by
  unfold isDigit
  rw [Bool.and_eq_true, decide_eq_true_iff, decide_eq_true_iff]
  rfl

theorem isDigit_of_mem_digits {n : Nat} (h : c ∈ digits n) : isDigit c = true :=
  Nat.isDigit_of_mem_toDigits (by decide) (by decide) h

theorem isBlank_of_isDigit (h : isDigit c = true) : Text.isBlank c = false := by
  obtain ⟨h0, h1⟩ := isDigit_iff.1 h
  exact Text.isBlank_of_visible (by omega) (by omega)

variable {ds : List Char}

/-- Digits are read as the number that they write. -/
theorem natOfDigits?_of_digits (hne : ds ≠ []) (h : ∀ c ∈ ds, c.isDigit = true) :
    natOfDigits? ds = some (Nat.ofDigitChars 10 ds 0) := by
  have hall : ds.all isDigit = true := List.all_eq_true.2 h
  rw [natOfDigits?, List.isEmpty_eq_false_iff.2 hne, hall]
  rfl

theorem natOfDigits?_digits (n : Nat) : natOfDigits? (digits n) = some n := by
  have hne : digits n ≠ [] := Nat.toDigits_ne_nil
  have hvalue : Nat.ofDigitChars 10 (digits n) 0 = n := Nat.ofDigitChars_ten_toDigits
  rw [natOfDigits?_of_digits hne fun c hc => isDigit_of_mem_digits hc, hvalue]

/-- Digits are read as the whole number that they write, within the limit. -/
theorem readNat?_of_digits (greatest : Nat) (hne : ds ≠ []) (h : ∀ c ∈ ds, c.isDigit = true) :
    readNat? greatest ds
      = if Nat.ofDigitChars 10 ds 0 ≤ greatest then some (Nat.ofDigitChars 10 ds 0) else none := by
  have hsign : ds.head? ≠ some '+' := by
    intro hplus
    exact absurd (h '+' (List.mem_of_head? hplus)) (by decide)
  rw [readNat?, if_neg hsign, natOfDigits?_of_digits hne h]
  rfl

theorem readNat?_digits {greatest n : Nat} (h : n ≤ greatest) : readNat? greatest (digits n) = some n := by
  have hne : digits n ≠ [] := Nat.toDigits_ne_nil
  have hvalue : Nat.ofDigitChars 10 (digits n) 0 = n := Nat.ofDigitChars_ten_toDigits
  rw [readNat?_of_digits greatest hne fun c hc => isDigit_of_mem_digits hc, hvalue, if_pos h]

theorem map_toLower_of_digits (h : ∀ c ∈ ds, c.isDigit = true) : ds.map Char.toLower = ds := by
  refine (List.map_congr_left fun c hc => ?_).trans (List.map_id ds)
  have hnine := (isDigit_iff.1 (h c hc)).2
  exact dif_neg fun hupper => absurd (show 65 ≤ c.toNat from hupper.1) (by omega)

/-- Digits are read as the double nearest to the number that they write. -/
theorem readFloat?_of_digits (hne : ds ≠ []) (h : ∀ c ∈ ds, c.isDigit = true) :
    readFloat? ds = some (toFloat (Nat.ofDigitChars 10 ds 0) 0) := by
  have hsign : takeSign ds = (false, ds) := by
    unfold takeSign
    split
    · exact absurd (h '-' List.mem_cons_self) (by decide)
    · exact absurd (h '+' List.mem_cons_self) (by decide)
    · rfl
  have hword : ∀ word : String, word.toList.all Char.isDigit = false →
      String.ofList (ds.map Char.toLower) ≠ word := by
    rintro _ hno rfl
    rw [String.toList_ofList, map_toLower_of_digits h, List.all_eq_true.2 h] at hno
    cases hno
  have hletters : ("inf".toList.all Char.isDigit || "infinity".toList.all Char.isDigit
      || "nan".toList.all Char.isDigit) = false := by decide +kernel
  have hmagnitude : readMagnitude? ds = some (toFloat (Nat.ofDigitChars 10 ds 0) 0) := by
    have htake : ds.takeWhile isDigit = ds := List.takeWhile_eq_self_iff.2 h
    have hdrop : ds.dropWhile isDigit = [] := List.dropWhile_eq_nil_iff.2 h
    simp [readMagnitude?, htake, hdrop, readExponent?, hne]
    rfl
  simp only [Bool.or_eq_false_iff] at hletters
  obtain ⟨⟨hinf, hinfinity⟩, hnan⟩ := hletters
  simp [readFloat?, hsign, hmagnitude, hword _ hinf, hword _ hinfinity, hword _ hnan]

end Decimal

/-! ## Sizes -/

namespace Size

/-- A digit is no letter. -/
theorem isLetter_of_isDigit {c : Char} (h : Decimal.isDigit c = true) : isLetter c = false := by
  obtain ⟨h0, h1⟩ := Decimal.isDigit_iff.1 h
  have hlower : ¬ 'a' ≤ c := fun hle => absurd (show 97 ≤ c.toNat from hle) (by omega)
  have hupper : ¬ 'A' ≤ c := fun hle => absurd (show 65 ≤ c.toNat from hle) (by omega)
  simp [isLetter, hlower, hupper]

/-- A letter is no blank. -/
theorem isBlank_of_isLetter {c : Char} (h : isLetter c = true) : Text.isBlank c = false := by
  have hcode : (97 ≤ c.toNat ∧ c.toNat ≤ 122) ∨ 65 ≤ c.toNat ∧ c.toNat ≤ 90 := by
    unfold isLetter at h
    simp only [Bool.or_eq_true, Bool.and_eq_true, decide_eq_true_iff] at h
    exact h
  exact Text.isBlank_of_visible (by omega) (by omega)

theorem isLetter_of_isBlank {c : Char} (h : Text.isBlank c = true) : isLetter c = false := by
  by_contra hletter
  rw [isBlank_of_isLetter (eq_true_of_ne_false hletter)] at h
  cases h

/-- A text is cut in front of its letters. -/
theorem span_letters {front letters : List Char} (hfront : ∀ c ∈ front, isLetter c = false)
    (hletters : ∀ c ∈ letters, isLetter c = true) :
    (front ++ letters).takeWhile (!isLetter ·) = front
      ∧ (front ++ letters).dropWhile (!isLetter ·) = letters := by
  have hnumber : ∀ c ∈ front, (!isLetter c) = true := by simpa using hfront
  rw [List.takeWhile_append_of_pos hnumber, List.dropWhile_append_of_pos hnumber]
  cases letters with
  | nil => simp
  | cons c letters => simp [hletters c List.mem_cons_self]

section Spelled

variable {lead ds gap letters trail : List Char} {unit : Nat}

/-- A text of digits and letters, with blanks around both, is cut into the two. -/
theorem exists_trim_eq (hne : ds ≠ []) (hdigits : ∀ c ∈ ds, c.isDigit = true)
    (hletters : ∀ c ∈ letters, isLetter c = true) (hlead : ∀ c ∈ lead, Text.isBlank c = true)
    (hgap : ∀ c ∈ gap, Text.isBlank c = true) (htrail : ∀ c ∈ trail, Text.isBlank c = true) :
    ∃ front, Text.trim (lead ++ ds ++ gap ++ letters ++ trail) = front ++ letters
      ∧ (∀ c ∈ front, isLetter c = false) ∧ Text.trim front = ds := by
  have hvisible : ∀ c ∈ ds, Text.isBlank c = false := fun c hc =>
    Decimal.isBlank_of_isDigit (hdigits c hc)
  have htrim : Text.trim ds = ds := Text.trim_of_forall hvisible
  have hnumber : ∀ c ∈ ds, isLetter c = false := fun c hc => isLetter_of_isDigit (hdigits c hc)
  by_cases hnil : letters = []
  · -- the blanks behind the digits are then blanks at the end
    subst hnil
    refine ⟨ds, ?_, hnumber, htrim⟩
    rw [List.append_nil, List.append_nil, List.append_assoc (lead ++ ds)]
    refine Text.trim_append_blanks hlead (fun c hc => ?_) htrim
    exact (List.mem_append.1 hc).elim (hgap c) (htrail c)
  · refine ⟨ds ++ gap, ?_, fun c hc => ?_, ?_⟩
    · have hbody : Text.trim (ds ++ gap ++ letters) = ds ++ gap ++ letters := by
        rw [Text.trim_eq_self_iff, List.append_assoc, List.head?_append_of_ne_nil _ hne,
          ← List.append_assoc, List.getLast?_append_of_ne_nil _ hnil]
        exact ⟨fun c hc => hvisible c (List.mem_of_head? hc),
          fun c hc => isBlank_of_isLetter (hletters c (List.mem_of_getLast? hc))⟩
      have hsame : lead ++ ds ++ gap ++ letters ++ trail
          = lead ++ (ds ++ gap ++ letters) ++ trail := by simp
      rw [hsame, Text.trim_append_blanks hlead htrail hbody]
    · exact (List.mem_append.1 hc).elim (hnumber c) fun hc => isLetter_of_isBlank (hgap c hc)
    · have hnone : ∀ c ∈ ([] : List Char), Text.isBlank c = true := by simp
      exact Text.trim_append_blanks hnone hgap htrim

/-- Digits and the letters of a unit are read as so many of the unit. The number is read as a whole
one if 64 bits hold it, and as a double otherwise. -/
theorem parse?_spelled (hne : ds ≠ []) (hdigits : ∀ c ∈ ds, c.isDigit = true)
    (hletters : ∀ c ∈ letters, isLetter c = true) (hunit : unit? letters = some unit)
    (hlead : ∀ c ∈ lead, Text.isBlank c = true) (hgap : ∀ c ∈ gap, Text.isBlank c = true)
    (htrail : ∀ c ∈ trail, Text.isBlank c = true) :
    parse? (lead ++ ds ++ gap ++ letters ++ trail)
      = if Nat.ofDigitChars 10 ds 0 ≤ Word.unsigned64 then
          wholeBytes? (Nat.ofDigitChars 10 ds 0) unit
        else fractionalBytes? (Decimal.toFloat (Nat.ofDigitChars 10 ds 0) 0) unit := by
  obtain ⟨front, htrim, hfront, hnumber⟩ :=
    exists_trim_eq hne hdigits hletters hlead hgap htrail
  obtain ⟨htake, hdrop⟩ := span_letters hfront hletters
  have hname : Text.trim letters = letters := Text.trim_of_forall fun c hc =>
    isBlank_of_isLetter (hletters c hc)
  unfold parse?
  dsimp only
  rw [htrim, htake, hdrop, hname, hnumber, hunit, Decimal.readNat?_of_digits _ hne hdigits,
    Decimal.readFloat?_of_digits hne hdigits]
  simp only [Option.bind_eq_bind, Option.bind_some]
  split_ifs <;> rfl

end Spelled

/-- The digits of a number and the letters of a unit are read as so many of the unit. -/
theorem parse?_digits_append {n unit : Nat} {letters : List Char}
    (hletters : letters.all isLetter = true) (hunit : unit? letters = some unit)
    (hpos : 0 < unit) (hfits : n * unit ≤ Word.unsigned64) :
    parse? (Decimal.digits n ++ letters) = some (n * unit) := by
  have hn : n ≤ Word.unsigned64 := (Nat.le_mul_of_pos_right n hpos).trans hfits
  have hne : Decimal.digits n ≠ [] := Nat.toDigits_ne_nil
  have hvalue : Nat.ofDigitChars 10 (Decimal.digits n) 0 = n := Nat.ofDigitChars_ten_toDigits
  have hnone : ∀ c ∈ ([] : List Char), Text.isBlank c = true := by simp
  have hspelled := parse?_spelled hne (fun c hc => Decimal.isDigit_of_mem_digits hc)
    (List.all_eq_true.1 hletters) hunit hnone hnone hnone
  rw [hvalue, if_pos hn, wholeBytes?, if_pos hfits] at hspelled
  simpa using hspelled

/-! ## Exact texts -/

/-- The letters of the units that exact texts are written in, with the bytes of each, the greatest
first. -/
def exactUnits : List (List Char × Nat) :=
  [(['G', 'B'], gigabyte), (['M', 'B'], megabyte), (['K', 'B'], kilobyte), ([], 1)]

/-- A size that a unit divides, written in that unit. -/
def textIn (unit : List Char × Nat) (bytes : Nat) : List Char :=
  Decimal.digits (bytes / unit.2) ++ unit.1

section ExactText

variable {unit : List Char × Nat} {bytes : Nat}

theorem spec_of_mem_exactUnits (h : unit ∈ exactUnits) :
    unit? unit.1 = some unit.2 ∧ unit.1.all isLetter = true ∧ 0 < unit.2 := by
  have hall : ∀ u ∈ exactUnits, unit? u.1 = some u.2 ∧ u.1.all isLetter = true ∧ 0 < u.2 := by decide
  exact hall unit h

theorem textIn_bytes (bytes : Nat) : textIn ([], 1) bytes = Decimal.digits bytes := by
  rw [textIn, Nat.div_one, List.append_nil]

/-- The exact text of a size is written in the first unit that divides it. -/
theorem exists_find?_exactUnits (h : bytes ≠ 0) :
    ∃ unit, exactUnits.find? (fun u => bytes % u.2 = 0) = some unit
      ∧ exactText bytes = textIn unit bytes := by
  unfold exactText
  rw [if_neg h]
  split_ifs with hgiga hmega hkilo
  · exact ⟨(['G', 'B'], gigabyte), by simp [exactUnits, hgiga], rfl⟩
  · exact ⟨(['M', 'B'], megabyte), by simp [exactUnits, hgiga, hmega], rfl⟩
  · exact ⟨(['K', 'B'], kilobyte), by simp [exactUnits, hgiga, hmega, hkilo], rfl⟩
  · exact ⟨([], 1), by simp [exactUnits, hgiga, hmega, hkilo, Nat.mod_one], (textIn_bytes bytes).symm⟩

/-- The exact text of a size is written in the greatest unit that divides it; that of nothing, which
all units divide, is written in bytes. -/
theorem exists_exactText_eq (bytes : Nat) :
    ∃ unit ∈ exactUnits, unit.2 ∣ bytes ∧ exactText bytes = textIn unit bytes
      ∧ (bytes ≠ 0 → ∀ other ∈ exactUnits, other.2 ∣ bytes → other.2 ≤ unit.2) := by
  rcases eq_or_ne bytes 0 with rfl | hne
  · exact ⟨([], 1), by decide, Nat.one_dvd 0, rfl, fun h => absurd rfl h⟩
  obtain ⟨unit, hfind, htext⟩ := exists_find?_exactUnits hne
  obtain ⟨hzero, greater, rest, hunits, hgreater⟩ := List.find?_eq_some_iff_append.1 hfind
  have hdvd : unit.2 ∣ bytes := Nat.dvd_of_mod_eq_zero (of_decide_eq_true hzero)
  refine ⟨unit, List.mem_of_find?_eq_some hfind, hdvd, htext, fun _ other hother hother' => ?_⟩
  have hsorted : exactUnits.Pairwise fun u v => v.2 ≤ u.2 := by decide
  rw [hunits] at hother hsorted
  -- no unit before the first one divides, and those after it are no greater
  rcases List.mem_append.1 hother with hbefore | hfrom
  · have hno := hgreater other hbefore
    simp [Nat.mod_eq_zero_of_dvd hother'] at hno
  · obtain ⟨-, hrest, -⟩ := List.pairwise_append.1 hsorted
    rcases List.mem_cons.1 hfrom with rfl | hafter
    · exact le_refl _
    · exact (List.pairwise_cons.1 hrest).1 other hafter

/-- The exact text of a size is made of digits and letters. -/
theorem isDigit_or_isLetter_of_mem_exactText {c : Char} (h : c ∈ exactText bytes) :
    Decimal.isDigit c = true ∨ isLetter c = true := by
  obtain ⟨unit, hunit, -, htext, -⟩ := exists_exactText_eq bytes
  obtain ⟨-, hletters, -⟩ := spec_of_mem_exactUnits hunit
  rw [htext, textIn, List.mem_append] at h
  exact h.imp Decimal.isDigit_of_mem_digits (List.all_eq_true.1 hletters c)

/-- A size of at most 64 bits reads back from its text in any unit that divides it. -/
theorem parse?_textIn (hunit : unit ∈ exactUnits) (hdvd : unit.2 ∣ bytes)
    (h : bytes ≤ Word.unsigned64) : parse? (textIn unit bytes) = some bytes := by
  obtain ⟨hname, hletters, hpos⟩ := spec_of_mem_exactUnits hunit
  have hwhole : bytes / unit.2 * unit.2 = bytes := Nat.div_mul_cancel hdvd
  rw [textIn, parse?_digits_append hletters hname hpos (by rwa [hwhole]), hwhole]

/-- Every size of at most 64 bits reads back from its exact text. -/
theorem parse?_exactText (h : bytes ≤ Word.unsigned64) : parse? (exactText bytes) = some bytes := by
  obtain ⟨unit, hunit, hdvd, htext, -⟩ := exists_exactText_eq bytes
  rw [htext]
  exact parse?_textIn hunit hdvd h

/-- The units that make a size of at most 64 bits are read as a whole number, and their bytes stay
within 64 bits. -/
theorem wholeBytes?_of_dvd {width : Nat} (hdvd : width ∣ bytes) (h : bytes ≤ Word.unsigned64) :
    Decimal.readNat? Word.unsigned64 (Decimal.digits (bytes / width)) = some (bytes / width)
      ∧ wholeBytes? (bytes / width) width = some bytes := by
  have hwhole : bytes / width * width = bytes := Nat.div_mul_cancel hdvd
  refine ⟨Decimal.readNat?_digits ((Nat.div_le_self bytes width).trans h), ?_⟩
  rw [wholeBytes?, hwhole, if_pos h]

/-- The exact text of a size is written in the greatest of the four units that divides the size, and in
whichever of them a size of at most 64 bits can be written without a remainder, it reads back: the number
is read as a whole one, and its product with the unit stays within 64 bits. -/
theorem parse?_inverts_exactText (h : bytes ≤ Word.unsigned64) :
    parse? (exactText bytes) = some bytes
      ∧ (∃ unit ∈ exactUnits, unit.2 ∣ bytes ∧ exactText bytes = textIn unit bytes
        ∧ (bytes ≠ 0 → ∀ other ∈ exactUnits, other.2 ∣ bytes → other.2 ≤ unit.2))
      ∧ ∀ unit ∈ exactUnits, unit.2 ∣ bytes →
        parse? (textIn unit bytes) = some bytes
          ∧ Decimal.readNat? Word.unsigned64 (Decimal.digits (bytes / unit.2)) = some (bytes / unit.2)
          ∧ wholeBytes? (bytes / unit.2) unit.2 = some bytes :=
  ⟨parse?_exactText h, exists_exactText_eq bytes, fun _ hunit hdvd =>
    ⟨parse?_textIn hunit hdvd h, wholeBytes?_of_dvd hdvd h⟩⟩

/-- The greatest word, which is odd, and the greatest that gigabytes make. -/
theorem parse?_inverts_exactText_at_limit :
    18446744073709551615 ≤ Word.unsigned64
      ∧ exactText 18446744073709551615 = "18446744073709551615".toList
      ∧ parse? (exactText 18446744073709551615) = some 18446744073709551615
      ∧ 18446744072635809792 ≤ Word.unsigned64
      ∧ exactText 18446744072635809792 = "17179869183GB".toList
      ∧ parse? (exactText 18446744072635809792) = some 18446744072635809792
      ∧ wholeBytes? 17179869183 gigabyte = some 18446744072635809792 := by
  have hword : 18446744073709551615 ≤ Word.unsigned64 := by decide
  have hgiga : 18446744072635809792 ≤ Word.unsigned64 := by decide
  obtain ⟨hback, -⟩ := parse?_inverts_exactText hword
  obtain ⟨hback', -, hunits⟩ := parse?_inverts_exactText hgiga
  obtain ⟨-, -, hbytes⟩ := hunits (['G', 'B'], gigabyte) (by decide) (by decide)
  exact ⟨hword, by decide +kernel, hback, hgiga, by decide +kernel, hback', hbytes⟩

end ExactText

/-- What is read as a size fits into 64 bits. -/
theorem le_of_parse? {cs : List Char} {n : Nat} (h : parse? cs = some n) : n ≤ Word.unsigned64 := by
  unfold parse? at h
  dsimp only at h
  obtain ⟨unit, -, h⟩ := Option.bind_eq_some_iff.1 h
  split at h
  · unfold wholeBytes? at h
    split at h
    · next hfits =>
      obtain rfl := Option.some_inj.1 h
      exact hfits
    · cases h
  · obtain ⟨x, -, h⟩ := Option.bind_eq_some_iff.1 h
    unfold fractionalBytes? at h
    dsimp only at h
    split_ifs at h
    obtain rfl := Option.some_inj.1 h
    have hle : Binary64.nearest 0 Word.unsigned64 (x * Float.ofNat unit) ≤ Word.unsigned64 := by
      unfold Binary64.nearest
      have hpos : (0 : Int) ≤ (Word.unsigned64 : Int) := Int.natCast_nonneg _
      split
      · omega
      · split <;> omega
      · dsimp only
        omega
    omega

end Size

end Orthomosaic
