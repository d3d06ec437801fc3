import Orthomosaic.Proofs.Bucket.Cylinder
import Orthomosaic.Proofs.Path
import Orthomosaic.Proofs.Settings.Size
import Orthomosaic.Proofs.Tile.Transparency

/-!
# Numbers and files of buckets

The number of a bucket holds its four coordinates side by side, so a bucket that the number has room for is
read back from it, and a number is that of the bucket it is read as (`Bucket.ofIndex?_eq_some`).

The file of a tile is named for the number, up to the first dot. The steps to it are those to the directory
of tiles under the root, two for the directory of the bucket, and then the name; extensions may hold what
they like, separators too, as all of it stands behind that dot. So buckets with different numbers share no
file (`TileLayout.index_eq_of_steps_file`).
-/

namespace Orthomosaic

/-! ## Names without separators -/

namespace Decimal

/-- A number with zeros in front consists of digits. -/
theorem isDigit_of_mem_padded {width n : ℕ} {c : Char} (h : c ∈ padded width n) : isDigit c = true := by
  rcases List.mem_append.1 h with hzero | hdigit
  · obtain ⟨-, rfl⟩ := List.mem_replicate.1 hzero
    decide
  · exact isDigit_of_mem_digits hdigit

/-- The text of an integer consists of digits, with a minus in front of a negative one. -/
theorem toList_toString_int (i : ℤ) :
    (toString i).toList = if 0 ≤ i then digits i.toNat else '-' :: digits (-i).toNat := by
  rw [Int.toString_eq_repr, Int.repr_eq_if]
  split <;> simp [digits, Nat.repr_eq_ofList_toDigits]

/-- The text of an integer starts with a character that is not a separator and not a dot, and there is
neither in it. -/
theorem toString_int_spec (i : ℤ) :
    (∃ c cs, (toString i).toList = c :: cs ∧ c ≠ '/' ∧ c ≠ '.')
      ∧ '/' ∉ (toString i).toList ∧ '.' ∉ (toString i).toList := by
  have hchars : ∀ c ∈ (toString i).toList, c ≠ '/' ∧ c ≠ '.' := by
    intro c hc
    have hcases : c = '-' ∨ isDigit c = true := by
      rw [toList_toString_int] at hc
      split at hc
      · exact .inr (isDigit_of_mem_digits hc)
      · exact (List.mem_cons.1 hc).imp_right isDigit_of_mem_digits
    constructor <;> rintro rfl <;> simp [isDigit] at hcases
  have hne : (toString i).toList ≠ [] := by
    rw [toList_toString_int]
    split
    · exact Nat.toDigits_ne_nil
    · exact List.cons_ne_nil _ _
  obtain ⟨c, cs, hcons⟩ := List.exists_cons_of_ne_nil hne
  exact ⟨⟨c, cs, hcons, hchars c (hcons ▸ List.mem_cons_self)⟩, fun h => (hchars _ h).1 rfl,
    fun h => (hchars _ h).2 rfl⟩

theorem eq_of_digits_eq {m n : ℕ} (h : digits m = digits n) : m = n := by
  have hread := natOfDigits?_digits m
  rw [h, natOfDigits?_digits n] at hread
  exact (Option.some.inj hread).symm

/-- Integers with the same text are equal. -/
theorem eq_of_toString_int_eq {i j : ℤ} (h : (toString i).toList = (toString j).toList) : i = j := by
  have hminus : ∀ {m n : ℕ}, digits m ≠ '-' :: digits n := fun {m n} h => by
    have hdigit := isDigit_of_mem_digits (h ▸ List.mem_cons_self : '-' ∈ digits m)
    simp [isDigit] at hdigit
  rw [toList_toString_int, toList_toString_int] at h
  split at h <;> split at h
  · have := eq_of_digits_eq h
    omega
  · exact absurd h hminus
  · exact absurd h.symm hminus
  · have := eq_of_digits_eq (List.cons.inj h).2
    omega

end Decimal

/-! ## Numbers -/

namespace Bucket

variable {b b' : Bucket} {i : ℤ}

/-- The buckets that a number has room for: 32 bits for the longitude counted from -180, and eight bits for
the latitude counted from -90. -/
structure Numberable (b : Bucket) : Prop where
  le_lon : -2 ^ 31 ≤ b.lon
  lon_le : b.lon ≤ 2 ^ 31 - 181
  le_lat : -90 ≤ b.lat
  lat_le : b.lat ≤ 165

/-- The number of a bucket that it has room for. -/
theorem Numberable.index?_eq (h : b.Numberable) : b.index? = some b.index := by
  have := h.le_lon
  have := h.lon_le
  have := h.le_lat
  have := h.lat_le
  have hlon : Word.fits32 (b.lon + 180) = true := decide_eq_true (by omega)
  have hlat : Word.fits32 (b.lat + 90) = true := decide_eq_true (by omega)
  simp [index?, hlon, hlat]

/-- The bucket that a number is read as, if its longitude fits 32 bits counted from -180 and not. -/
theorem ofIndex?_eq_some (h0 : -2 ^ 31 + 180 ≤ i / 2 ^ 14) (h1 : i / 2 ^ 14 ≤ 2 ^ 31 - 1) :
    ofIndex? i = some ⟨i / 2 ^ 14 - 180, i / 2 ^ 6 % 2 ^ 8 - 90, overEights (i % 8).toNat,
      overEights (i / 8 % 8).toNat⟩ := by
  have hlow : Word.low32 (i / 16384) = i / 16384 := Int.bmod_eq_of_le (by omega) (by omega)
  have hfits : Word.fits32 (i / 16384 - 180) = true := decide_eq_true (by omega)
  simp [ofIndex?, Word.checked32?, hlow, hfits]

/-- A bucket is read back from its number. -/
theorem Numberable.ofIndex?_index (h : b.Numberable) : ofIndex? b.index = some b := by
  have := h.le_lon
  have := h.lon_le
  have := h.le_lat
  have := h.lat_le
  obtain ⟨lon, lat, x, y⟩ := b
  have hx := x.isLt
  have hy := y.isLt
  unfold index
  dsimp only at *
  rw [ofIndex?_eq_some (by omega) (by omega), Option.some.injEq, Bucket.mk.injEq]
  refine ⟨by omega, by omega, Fin.ext ?_, Fin.ext ?_⟩
  all_goals
    rw [overEights, Fin.val_ofNat]
    omega

/-- A number is that of the bucket it is read as. -/
theorem exists_index?_eq (h0 : -2 ^ 31 + 180 ≤ i / 2 ^ 14) (h1 : i / 2 ^ 14 ≤ 2 ^ 31 - 1) :
    ∃ b, ofIndex? i = some b ∧ b.index? = some i := by
  refine ⟨_, ofIndex?_eq_some h0 h1, ?_⟩
  rw [Numberable.index?_eq ⟨?_, ?_, ?_, ?_⟩, Option.some.injEq]
  · unfold index overEights
    dsimp only
    rw [Fin.val_ofNat, Fin.val_ofNat]
    omega
  all_goals
    dsimp only
    omega

/-- A number has room for the buckets of the globe's tiling. -/
theorem Canonical.numberable (h : b.Canonical) : b.Numberable := by
  have hle := h.le_lon
  have hlon := h.lon_le
  have hlat := h.lat_le
  exact ⟨by omega, by omega, h.le_lat, by omega⟩

/-- A number has room for the buckets that can be obtained. -/
theorem Obtained.numberable (h : b.Obtained) : b.Numberable := by
  cases h with
  | containing lon lat => exact (canonical_containing lon lat).numberable
  | sibling b columns rows => exact (canonical_containing _ _).numberable
  | @ofIndex i b h =>
    have hlat := (Obtained.ofIndex h).lat_mem
    obtain ⟨lon, hlon, hb⟩ := Option.bind_eq_some_iff.1 h
    obtain rfl := Option.some.inj hb
    have hupper : Word.low32 (i / 16384) < 2 ^ 31 := Int.bmod_lt (by decide)
    unfold Word.checked32? at hlon
    split at hlon
    · next hfits =>
      obtain ⟨hle, -⟩ := of_decide_eq_true hfits
      obtain rfl := Option.some.inj hlon
      dsimp only at hlat
      exact ⟨by dsimp only; omega, by dsimp only; omega, by dsimp only; omega, by dsimp only; omega⟩
    · cases hlon

/-! ## Files -/

/-- The name of a degree has no separator. -/
theorem separator_notMem_degreeName {positive negative : Char} (hpositive : positive ≠ '/')
    (hnegative : negative ≠ '/') (width : ℕ) (degree : ℤ) :
    '/' ∉ degreeName positive negative width degree := by
  intro h
  rcases List.mem_cons.1 h with hletter | hdigit
  · split at hletter
    · exact hpositive hletter.symm
    · exact hnegative hletter.symm
  · have hslash := Decimal.isDigit_of_mem_padded hdigit
    simp [Decimal.isDigit] at hslash

/-- The name of a corner starts with a letter and has no separator. -/
theorem cornerName_spec (lon lat : ℤ) :
    (∃ c cs, (cornerName lon lat).toList = c :: cs ∧ c ≠ '/' ∧ c ≠ '.')
      ∧ '/' ∉ (cornerName lon lat).toList := by
  have htext : (cornerName lon lat).toList
      = degreeName 'e' 'w' 3 lon ++ degreeName 'n' 's' 2 lat := String.toList_ofList
  rw [htext]
  constructor
  · rw [degreeName, List.cons_append]
    refine ⟨_, _, rfl, ?_⟩
    split <;> decide
  · rw [List.mem_append, not_or]
    exact ⟨separator_notMem_degreeName (by decide) (by decide) 3 lon,
      separator_notMem_degreeName (by decide) (by decide) 2 lat⟩

/-- The directory of a bucket starts with a name and leads two steps down. -/
theorem directory_spec (b : Bucket) :
    (⟨b.directory⟩ : Path).StartsWithName ∧ (⟨b.directory⟩ : Path).steps.length = 2 := by
  obtain ⟨⟨c, cs, hcell, hslash, hdot⟩, hnone⟩ := cornerName_spec (tenDegreeCell b.lon) (tenDegreeCell b.lat)
  obtain ⟨⟨c', cs', hcorner, -, hdot'⟩, hnone'⟩ := cornerName_spec b.lon b.lat
  have htext : b.directory.toList
      = (cornerName (tenDegreeCell b.lon) (tenDegreeCell b.lat)).toList
        ++ '/' :: (cornerName b.lon b.lat).toList := by
    simp [directory]
  have hstarts : (⟨b.directory⟩ : Path).StartsWithName :=
    ⟨c, _, by rw [htext, hcell, List.cons_append], hslash, hdot⟩
  refine ⟨hstarts, ?_⟩
  rw [hstarts.steps_eq, htext, Text.splitOn_append_cons hnone, Text.splitOn_of_notMem hnone', hcell,
    hcorner]
  simp [Path.stepOf?_cons hdot, Path.stepOf?_cons hdot']

end Bucket

namespace TileLayout

variable {layout : TileLayout} {root : Path} {b b' : Bucket} {i : ℤ} {extension extension' : String}

theorem toList_name (i : ℤ) (extension : String) :
    (s!"{i}.{extension}").toList = (toString i).toList ++ '.' :: extension.toList := by
  simp [String.toList_append]
  rfl

theorem startsWithName_name (i : ℤ) (extension : String) :
    (⟨s!"{i}.{extension}"⟩ : Path).StartsWithName := by
  obtain ⟨⟨c, cs, hcons, hslash, hdot⟩, -⟩ := Decimal.toString_int_spec i
  exact ⟨c, _, by rw [toList_name, hcons, List.cons_append], hslash, hdot⟩

/-- The first step of the name is the number with a dot and what stands behind it up to a separator. -/
theorem exists_steps_name (i : ℤ) (extension : String) :
    ∃ piece others, (⟨s!"{i}.{extension}"⟩ : Path).steps
      = .entry ((toString i).toList ++ '.' :: piece) :: others := by
  obtain ⟨⟨c, cs, hcons, -, hdot⟩, hslash, -⟩ := Decimal.toString_int_spec i
  obtain ⟨piece, others, hs⟩ := List.exists_cons_of_ne_nil (Text.splitOn_ne_nil '/' extension.toList)
  have hpieces : Text.splitOn '/' ((toString i).toList ++ '.' :: extension.toList)
      = ((toString i).toList ++ '.' :: piece) :: others := by
    refine Text.splitOn_append_of_notMem hslash ?_
    rw [Text.splitOn, if_neg (by decide), hs]
  refine ⟨piece, others.filterMap Path.stepOf?, ?_⟩
  rw [(startsWithName_name i extension).steps_eq, toList_name, hpieces, hcons, List.cons_append,
    List.filterMap_cons, Path.stepOf?_cons hdot]

/-- Files of one root that are reached by the same steps are named for the same number. -/
theorem index_eq_of_steps_file
    (h : (layout.file root b.directory b.index extension).steps
      = (layout.file root b'.directory b'.index extension').steps) : b.index = b'.index := by
  obtain ⟨hstarts, hlength⟩ := b.directory_spec
  obtain ⟨hstarts', hlength'⟩ := b'.directory_spec
  unfold file at h
  rw [Path.steps_join _ (startsWithName_name _ _), Path.steps_join _ (startsWithName_name _ _),
    Path.steps_join _ hstarts, Path.steps_join _ hstarts', List.append_assoc, List.append_assoc] at h
  obtain ⟨-, hname⟩ := List.append_inj (List.append_cancel_left h) (hlength.trans hlength'.symm)
  obtain ⟨piece, others, hsteps⟩ := exists_steps_name b.index extension
  obtain ⟨piece', others', hsteps'⟩ := exists_steps_name b'.index extension'
  rw [hsteps, hsteps', List.cons.injEq, PathStep.entry.injEq] at hname
  -- both names are cut at their first dot
  obtain ⟨-, -, hdot⟩ := Decimal.toString_int_spec b.index
  obtain ⟨-, -, hdot'⟩ := Decimal.toString_int_spec b'.index
  have hcut := congrArg (Text.splitOn '.') hname.1
  rw [Text.splitOn_append_cons hdot, Text.splitOn_append_cons hdot', List.cons.injEq] at hcut
  exact Decimal.eq_of_toString_int_eq hcut.1

end TileLayout

namespace Bucket

/-- The number of a bucket is a faithful code: a bucket that it has room for is read back from it, and a
number whose longitude can be counted from -180 is that of the bucket it is read as. It has room for the
buckets that can be obtained, and different ones of these share neither a number nor, under any root and with
any layout, a file. -/
theorem index_faithful :
    (∀ b : Bucket, b.Numberable →
      b.index? = some b.index ∧ (Word.least64 ≤ b.index ∧ b.index ≤ Word.greatest64)
        ∧ ofIndex? b.index = some b)
    ∧ (∀ i : ℤ, -2 ^ 31 + 180 ≤ i / 2 ^ 14 → i / 2 ^ 14 ≤ 2 ^ 31 - 1 →
        ∃ b, ofIndex? i = some b ∧ b.index? = some i)
    ∧ (∀ b : Bucket, b.Obtained → b.Numberable)
    ∧ ∀ b b' : Bucket, b.Obtained → b'.Obtained → b ≠ b' →
        b.index ≠ b'.index
        ∧ ∀ (layout : TileLayout) (root : Path),
          ∀ p ∈ layout.candidates root b.directory b.index,
          ∀ q ∈ layout.candidates root b'.directory b'.index, (p == q) = false := by
  refine ⟨fun b hb => ⟨hb.index?_eq, ?_, hb.ofIndex?_index⟩, fun i h0 h1 => exists_index?_eq h0 h1,
    fun b hb => hb.numberable, fun b b' hb hb' hne => ?_⟩
  · have := hb.le_lon
    have := hb.lon_le
    have := hb.le_lat
    have := hb.lat_le
    have := b.x.isLt
    have := b.y.isLt
    unfold index Word.least64 Word.greatest64
    omega
  · have hindex : b.index ≠ b'.index := fun h => hne (hb.eq_of_index_eq hb' h)
    have hfile : ∀ (layout : TileLayout) (root : Path) (extension extension' : String),
        (layout.file root b.directory b.index extension
          == layout.file root b'.directory b'.index extension') = false := by
      intro layout root extension extension'
      rw [Bool.eq_false_iff]
      exact fun h => hindex (TileLayout.index_eq_of_steps_file ((Path.beq_iff _ _).1 h))
    refine ⟨hindex, fun layout root p hp q hq => ?_⟩
    simp only [TileLayout.candidates, List.mem_cons, List.not_mem_nil, or_false] at hp hq
    rcases hp with rfl | rfl <;> rcases hq with rfl | rfl <;> exact hfile layout root _ _

/-- The last bucket and the first number that there is room for, and the two neighbours of a bucket at the
antimeridian, under a layout whose extensions lead out of the directory again. -/
theorem index_faithful_at_limits :
    (⟨-2147483648, 165, 7, 7⟩ : Bucket).Numberable
      ∧ ofIndex? (⟨-2147483648, 165, 7, 7⟩ : Bucket).index = some ⟨-2147483648, 165, 7, 7⟩
      ∧ (∃ b, ofIndex? ((-2 ^ 31 + 180) * 2 ^ 14) = some b ∧ b.index? = some ((-2 ^ 31 + 180) * 2 ^ 14))
      ∧ (⟨168, 89, 0, 3⟩ : Bucket).Obtained ∧ (⟨-168, 89, 0, 3⟩ : Bucket).Obtained
      ∧ ∀ p ∈ TileLayout.candidates ⟨"/tiles", "png/../..", ""⟩ ⟨"scenery"⟩
            (⟨168, 89, 0, 3⟩ : Bucket).directory (⟨168, 89, 0, 3⟩ : Bucket).index,
          ∀ q ∈ TileLayout.candidates ⟨"/tiles", "png/../..", ""⟩ ⟨"scenery"⟩
            (⟨-168, 89, 0, 3⟩ : Bucket).directory (⟨-168, 89, 0, 3⟩ : Bucket).index,
          (p == q) = false := by
  have hroom : (⟨-2147483648, 165, 7, 7⟩ : Bucket).Numberable :=
    ⟨by decide, by decide, by decide, by decide⟩
  have hstep : ∀ columns : ℤ, Word.fits32 columns = true →
      (ofCell 1435 (0 + columns)).Obtained := by
    intro columns hcolumns
    have hsibling : (ofCell 1435 0).sibling Float columns 0 = ofCell 1435 (0 + columns) :=
      sibling_float_east (by decide) (by decide) 0 hcolumns
    rw [← hsibling]
    exact .sibling _ _ _
  have hwest : (⟨168, 89, 0, 3⟩ : Bucket).Obtained := by
    have hcell : ofCell 1435 (0 + -1) = ⟨168, 89, 0, 3⟩ := by decide +kernel
    exact hcell ▸ hstep (-1) (by decide)
  have heast : (⟨-168, 89, 0, 3⟩ : Bucket).Obtained := by
    have hcell : ofCell 1435 (0 + 1) = ⟨-168, 89, 0, 3⟩ := by decide +kernel
    exact hcell ▸ hstep 1 (by decide)
  obtain ⟨hread, hnumber, -, hapart⟩ := index_faithful
  exact ⟨hroom, (hread _ hroom).2.2, hnumber _ (by decide) (by decide), hwest, heast,
    (hapart _ _ hwest heast (by decide)).2 _ _⟩

end Bucket

end Orthomosaic
