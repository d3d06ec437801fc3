import Orthomosaic.Proofs.Settings.Locality
import Orthomosaic.Proofs.Settings.Size

/-!
# Settings in the form in which they are read

A text that is read for a setting comes out in a normal form (`Assignment.Normal`): trimmed, a path with its
tilde replaced, an extension bare of dots and in lower case, a size within 64 bits. What is written of it is
read as the same again (`Assignment.Normal.read_text`), so every setting that was ever set can be read and
written back.

There is one exception. An extension is trimmed first and bared of its dots then, so blanks between the dots
and the name stay in front, and are trimmed when it is read again (`Settings.Reachable.set_get_iff`).
-/

namespace Orthomosaic

/-! ## Letters in lower case -/

/-- A character is left as it is by lowering, and then is no upper-case letter, or becomes one of the
lower-case letters. -/
theorem toLower_cases (c : Char) :
    (c.toLower = c ∧ ¬ ('A' ≤ c ∧ c ≤ 'Z'))
      ∨ Size.isLetter c = true ∧ 97 ≤ c.toLower.toNat ∧ c.toLower.toNat ≤ 122 := by
  by_cases hupper : 'A' ≤ c ∧ c ≤ 'Z'
  · right
    have hcode : 65 ≤ c.toNat ∧ c.toNat ≤ 90 := hupper
    have hlower : c.toLower.toNat = c.toNat + 32 := by
      have hsum : c.toLower.toNat = (c.toNat + 32) % 2 ^ 32 :=
        (congrArg Char.toNat (dif_pos hupper)).trans (UInt32.toNat_add ..)
      omega
    exact ⟨by simp [Size.isLetter, hupper], by omega, by omega⟩
  · exact .inl ⟨dif_neg hupper, hupper⟩

/-- Lowering makes letters of letters only. -/
theorem eq_of_toLower_eq {c x : Char} (hx : Size.isLetter x = false) (h : c.toLower = x) : c = x := by
  rcases toLower_cases c with ⟨hsame, -⟩ | ⟨-, h0, h1⟩
  · rw [← hsame, h]
  · have hletter : Size.isLetter x = true := by
      rw [← h]
      have hlower : 'a' ≤ c.toLower ∧ c.toLower ≤ 'z' := ⟨h0, h1⟩
      simp [Size.isLetter, hlower]
    rw [hx] at hletter
    cases hletter

/-- A character in lower case is no upper-case letter. -/
theorem not_upper_toLower (c : Char) : ¬ ('A' ≤ c.toLower ∧ c.toLower ≤ 'Z') := by
  rcases toLower_cases c with ⟨hsame, hnot⟩ | ⟨-, h0, -⟩
  · rwa [hsame]
  · rintro ⟨-, hle⟩
    have hcode : c.toLower.toNat ≤ 90 := hle
    omega

/-- Lowering leaves blanks as they are and makes none. -/
theorem isBlank_toLower (c : Char) : Text.isBlank c.toLower = Text.isBlank c := by
  rcases toLower_cases c with ⟨hsame, -⟩ | ⟨hletter, h0, h1⟩
  · rw [hsame]
  · rw [Size.isBlank_of_isLetter hletter]
    exact Text.isBlank_of_visible (by omega) (by omega)

/-! ## Paths -/

/-- A text as trimming leaves it, with something in it. -/
structure TrimmedText (text : String) : Prop where
  ne_nil : text.toList ≠ []
  trim_eq : Text.trim text.toList = text.toList

/-- A home directory that can stand in a list of paths as it is. -/
structure PlainHome (home : Path) : Prop extends TrimmedText home.text where
  not_separator : Settings.pathSeparator ∉ home.text.toList
  not_below_home : ¬ ['~', '/'] <+: home.text.toList

/-- A path that is read as it is written. -/
structure NormalPath (home : Option Path) (p : Path) : Prop extends TrimmedText p.text where
  ofText_eq : Path.ofText home p.text.toList = p

namespace Path

variable {home : Option Path} {text : List Char}

/-- A path that is not below the home directory is taken as it is written. -/
theorem ofText_of_not_below (home : Option Path) (h : ¬ ['~', '/'] <+: text) :
    ofText home text = ⟨String.ofList text⟩ := by
  unfold ofText
  split
  · next rest _ => exact absurd ⟨rest, rfl⟩ h
  · rfl

/-- What is joined to a directory replaces it, or stands behind it with a separator between them. -/
theorem toList_join {dir : Path} (hne : dir.text.toList ≠ []) (rest : List Char) :
    (rest.head? = some '/' ∧ (dir.join ⟨String.ofList rest⟩).text.toList = rest)
      ∨ ∃ tail, (tail = rest ∧ dir.text.toList.getLast? = some '/' ∨ tail = '/' :: rest)
        ∧ (dir.join ⟨String.ofList rest⟩).text.toList = dir.text.toList ++ tail := by
  have hempty : dir.text.isEmpty = false := by
    rw [← Bool.not_eq_true, String.isEmpty_iff]
    intro h
    exact hne (by rw [h]; rfl)
  unfold join isAbsolute
  dsimp only
  rw [String.toList_ofList, hempty, Bool.or_false]
  by_cases habsolute : rest.head? = some '/'
  · rw [if_pos (by simp [habsolute])]
    exact .inl ⟨habsolute, String.toList_ofList⟩
  · rw [if_neg (by simp [habsolute])]
    by_cases hlast : dir.text.toList.getLast? = some '/'
    · rw [if_pos (by simp [hlast])]
      exact .inr ⟨rest, .inl ⟨rfl, hlast⟩, by simp⟩
    · rw [if_neg (by simp [hlast])]
      exact .inr ⟨'/' :: rest, .inr rfl, by simp⟩

/-- No separator comes into a path by its tilde. -/
theorem notMem_ofText (hhome : ∀ dir, home = some dir → PlainHome dir)
    (h : Settings.pathSeparator ∉ text) : Settings.pathSeparator ∉ (ofText home text).text.toList := by
  unfold ofText
  split
  · next rest dir =>
    have hdir := hhome dir rfl
    have hrest : Settings.pathSeparator ∉ rest := fun hmem =>
      h (List.mem_cons_of_mem _ (List.mem_cons_of_mem _ hmem))
    rcases toList_join hdir.ne_nil rest with ⟨-, hjoin⟩ | ⟨tail, htail, hjoin⟩
    · rwa [hjoin]
    · rw [hjoin, List.mem_append, not_or]
      refine ⟨hdir.not_separator, ?_⟩
      rcases htail with ⟨rfl, -⟩ | rfl
      · exact hrest
      · rw [List.mem_cons, not_or]
        exact ⟨by decide, hrest⟩
  · rwa [String.toList_ofList]

end Path

/-- A trimmed path without a tilde in front is read as it is written. -/
theorem TrimmedText.normalPath {p : Path} (h : TrimmedText p.text) (home : Option Path)
    (htilde : ¬ ['~', '/'] <+: p.text.toList) : NormalPath home p :=
  ⟨h, by rw [Path.ofText_of_not_below home htilde, String.ofList_toList]⟩

/-- A home directory with something behind it is below a home directory only if it is a tilde itself,
which then stands for itself. -/
theorem PlainHome.eq_tilde {dir : Path} (h : PlainHome dir) {tail : List Char}
    (htilde : ['~', '/'] <+: dir.text.toList ++ tail) : dir.text.toList = ['~'] := by
  have hne := h.ne_nil
  have hnot := h.not_below_home
  generalize dir.text.toList = cs at *
  match cs with
  | [c] =>
    obtain ⟨rfl, -⟩ := List.cons_prefix_cons.1 htilde
    rfl
  | c :: c' :: cs => exact absurd (by simpa using htilde) hnot

/-- What is joined to a home directory is read as it is written, with the tilde replaced once only. -/
theorem PlainHome.normalPath_join {dir : Path} (h : PlainHome dir) {rest : List Char}
    (hlast : ∀ c, rest.getLast? = some c → Text.isBlank c = false) :
    NormalPath (some dir) (dir.join ⟨String.ofList rest⟩) := by
  rcases Path.toList_join h.ne_nil rest with ⟨hhead, hjoin⟩ | ⟨tail, htail, hjoin⟩
  · generalize dir.join ⟨String.ofList rest⟩ = p at hjoin
    subst hjoin
    refine TrimmedText.normalPath ⟨?_, Text.trim_eq_self_iff.2 ⟨fun c hc => ?_, hlast⟩⟩ _ ?_
    · intro hnil
      rw [hnil] at hhead
      cases hhead
    · obtain rfl := Option.some_inj.1 (hhead.symm.trans hc)
      decide
    · rintro ⟨others, hothers⟩
      rw [← hothers] at hhead
      cases hhead
  · have htail' : ∀ c, tail.getLast? = some c → Text.isBlank c = false := by
      rcases htail with ⟨rfl, -⟩ | rfl
      · exact hlast
      · cases rest with
        | nil => simp [Text.isBlank]
        | cons c rest => simpa using hlast
    have htrimmed : TrimmedText (dir.join ⟨String.ofList rest⟩).text := by
      constructor <;> rw [hjoin]
      · exact List.append_ne_nil_of_left_ne_nil h.ne_nil _
      · exact Text.trim_append h.ne_nil h.trim_eq htail'
    by_cases htilde : ['~', '/'] <+: (dir.join ⟨String.ofList rest⟩).text.toList
    · rw [hjoin] at htilde
      have hdir := h.eq_tilde htilde
      refine ⟨htrimmed, ?_⟩
      rw [hjoin, hdir]
      rcases htail with ⟨-, hslash⟩ | rfl
      · rw [hdir] at hslash
        cases hslash
      · rfl
    · exact htrimmed.normalPath _ htilde

/-- What is read as a path is read as it is written. -/
theorem normalPath_ofText {home : Option Path} {text : List Char}
    (hhome : ∀ dir, home = some dir → PlainHome dir) (hne : text ≠ [])
    (htrim : Text.trim text = text) : NormalPath home (Path.ofText home text) := by
  by_cases htilde : ['~', '/'] <+: text
  · obtain ⟨rest, rfl⟩ := htilde
    cases home with
    | some dir =>
      refine (hhome dir rfl).normalPath_join fun c hc => (Text.trim_eq_self_iff.1 htrim).2 c ?_
      cases rest with
      | nil => cases hc
      | cons c' rest => simpa using hc
    | none =>
      refine ⟨⟨?_, ?_⟩, ?_⟩
      · simp [Path.ofText]
      · simpa [Path.ofText] using htrim
      · simp [Path.ofText]
  · rw [Path.ofText_of_not_below home htilde]
    refine TrimmedText.normalPath ⟨?_, ?_⟩ home ?_ <;> rwa [String.toList_ofList]

/-- What is read as a list of paths is read as it is written, path by path. -/
theorem normalPath_of_mem_readPaths {home : Option Path} {value : List Char} {p : Path}
    (hhome : ∀ dir, home = some dir → PlainHome dir) (hp : p ∈ Assignment.readPaths home value) :
    NormalPath home p ∧ Settings.pathSeparator ∉ p.text.toList := by
  unfold Assignment.readPaths at hp
  obtain ⟨piece, hpiece, rfl⟩ := List.mem_map.1 hp
  obtain ⟨hmem, hne⟩ := List.mem_filter.1 hpiece
  obtain ⟨whole, hwhole, rfl⟩ := List.mem_map.1 hmem
  have hseparator : Settings.pathSeparator ∉ Text.trim whole := fun hin =>
    Text.notMem_of_mem_splitOn hwhole ((Text.trim_sublist whole).mem hin)
  exact ⟨normalPath_ofText hhome (by simpa using hne) (Text.trim_trim whole),
    Path.notMem_ofText hhome hseparator⟩

/-- Paths are cut out of the text that joins them again. -/
theorem readPaths_joinWith {home : Option Path} {paths : List Path}
    (h : ∀ p ∈ paths, NormalPath home p ∧ Settings.pathSeparator ∉ p.text.toList) :
    Assignment.readPaths home (Text.joinWith Settings.pathSeparator (paths.map (·.text.toList)))
      = paths := by
  cases paths with
  | nil => rfl
  | cons p paths =>
    have hsplit : Text.splitOn Settings.pathSeparator
        (Text.joinWith Settings.pathSeparator ((p :: paths).map (·.text.toList)))
          = (p :: paths).map (·.text.toList) := by
      refine Text.splitOn_joinWith (by simp) fun piece hpiece => ?_
      obtain ⟨q, hq, rfl⟩ := List.mem_map.1 hpiece
      exact (h q hq).2
    unfold Assignment.readPaths
    rw [hsplit]
    generalize p :: paths = all at h
    induction all with
    | nil => rfl
    | cons q all ih =>
      obtain ⟨⟨hq, -⟩, hall⟩ := List.forall_mem_cons.1 h
      simpa [hq.trim_eq, hq.ne_nil, hq.ofText_eq] using ih hall

/-! ## Extensions -/

/-- An extension that is read as it is written, once no blank stands in front of it. -/
structure NormalExtension (extension : String) : Prop where
  ne_nil : extension.toList ≠ []
  head_ne_dot : extension.toList.head? ≠ some '.'
  not_separator : '/' ∉ extension.toList ∧ '\\' ∉ extension.toList
  lower : ∀ c ∈ extension.toList, ¬ ('A' ≤ c ∧ c ≤ 'Z')
  last_not_blank : ∀ c, extension.toList.getLast? = some c → Text.isBlank c = false

/-- An extension is what stands behind the dots, in lower case. -/
theorem exists_of_readExtension {value : List Char} {extension : String}
    (h : Assignment.readExtension value = .ok extension) :
    ∃ dots bare, value = dots ++ bare ∧ bare ≠ [] ∧ bare.head? ≠ some '.' ∧ '/' ∉ bare ∧ '\\' ∉ bare
      ∧ extension.toList = bare.map Char.toLower := by
  unfold Assignment.readExtension at h
  dsimp only at h
  split_ifs at h with hnil hbare
  obtain rfl := Except.ok.inj h
  push Not at hbare
  obtain ⟨hne, hslash, hbackslash⟩ := hbare
  refine ⟨_, _, List.takeWhile_append_dropWhile.symm, hne, fun hdot => ?_, hslash, hbackslash,
    String.toList_ofList⟩
  have hhead := List.head?_dropWhile_not (· == '.') value
  rw [hdot] at hhead
  cases hhead

/-- What is read as an extension is in normal form. -/
theorem normalExtension_of_readExtension {value : List Char} {extension : String}
    (htrim : Text.trim value = value)
    (h : Assignment.readExtension value = .ok extension) : NormalExtension extension := by
  obtain ⟨dots, bare, rfl, hne, hhead, hslash, hbackslash, htext⟩ := exists_of_readExtension h
  have hold : ∀ {x : Char}, Size.isLetter x = false → x ∈ bare.map Char.toLower → x ∈ bare := by
    intro x hx hmem
    obtain ⟨c, hc, hlower⟩ := List.mem_map.1 hmem
    exact eq_of_toLower_eq hx hlower ▸ hc
  constructor
  · simpa [htext] using hne
  · rw [htext, List.head?_map]
    intro hdot
    obtain ⟨c, hc, hlower⟩ := Option.map_eq_some_iff.1 hdot
    exact hhead (hc.trans (congrArg some (eq_of_toLower_eq (by decide) hlower)))
  · rw [htext]
    exact ⟨mt (hold (by decide)) hslash, mt (hold (by decide)) hbackslash⟩
  · rw [htext]
    intro c hc
    obtain ⟨c, -, rfl⟩ := List.mem_map.1 hc
    exact not_upper_toLower c
  · rw [htext, List.getLast?_map]
    intro c hc
    obtain ⟨last, hlast, rfl⟩ := Option.map_eq_some_iff.1 hc
    rw [isBlank_toLower]
    refine (Text.trim_eq_self_iff.1 htrim).2 last ?_
    rw [List.getLast?_append_of_ne_nil _ hne, hlast]

/-- An extension in normal form is read as it is written. -/
theorem NormalExtension.readExtension_eq {extension : String} (h : NormalExtension extension) :
    Assignment.readExtension extension.toList = .ok extension := by
  have hbare : extension.toList.dropWhile (· == '.') = extension.toList := by
    have hhead := h.head_ne_dot
    cases htext : extension.toList with
    | nil => rfl
    | cons c cs =>
      rw [htext] at hhead
      exact List.dropWhile_cons_of_neg (by simpa using hhead)
  have hlower : extension.toList.map Char.toLower = extension.toList := by
    refine (List.map_congr_left fun c hc => ?_).trans (List.map_id _)
    exact dif_neg fun hupper => h.lower c hc ⟨hupper.1, hupper.2⟩
  unfold Assignment.readExtension
  rw [if_neg h.ne_nil, hbare]
  dsimp only
  rw [if_neg (by simp [h.ne_nil, h.not_separator]), hlower, String.ofList_toList]

/-- What is read as an extension has no more characters than there were. -/
theorem length_of_readExtension {value : List Char} {extension : String}
    (h : Assignment.readExtension value = .ok extension) :
    extension.toList.length ≤ value.length := by
  obtain ⟨dots, bare, rfl, -, -, -, -, htext⟩ := exists_of_readExtension h
  rw [htext, List.length_map, List.length_append]
  exact Nat.le_add_left _ _

/-! ## Words -/

theorem readChoice?_word (choice : Bool) :
    Assignment.readChoice? (if choice then "true" else "false").toList = some choice := by
  cases choice <;> decide +kernel

theorem parse?_name (level : LogLevel) : LogLevel.parse? level.name.toList = some level := by
  cases level <;> decide +kernel

/-! ## Values -/

namespace Assignment

variable {home : Option Path} {a : Assignment} {key : SettingKey} {text : String}

/-- A value in the form in which it is read. -/
def Normal (home : Option Path) : Assignment → Prop
  | sceneryPaths paths =>
    ∀ p ∈ paths, NormalPath home p ∧ Settings.pathSeparator ∉ p.text.toList
  | tileDirectory name => TrimmedText name
  | primaryExtension extension => NormalExtension extension
  | secondaryExtension extension => NormalExtension extension
  | cacheSize bytes => bytes ≤ Word.unsigned64
  | cacheMissing _ => True
  | logLevel level => ∃ known : LogLevel, known.name = level
  | logDirectory directory => ∀ p, directory = some p → NormalPath home p

/-- The extension that is changed, if one is. -/
def extension? : Assignment → Option String
  | primaryExtension extension => some extension
  | secondaryExtension extension => some extension
  | _ => none

/-- What is read is in normal form. -/
theorem normal_of_read (hhome : ∀ dir, home = some dir → PlainHome dir)
    (h : read home key text = .ok a) : a.Normal home := by
  rw [read_eq_ok_iff] at h
  have htrim := Text.trim_trim text.toList
  generalize Text.trim text.toList = value at h htrim
  cases key with
  | sceneryPaths =>
    obtain rfl := Except.ok.inj h
    exact fun p hp => normalPath_of_mem_readPaths hhome hp
  | tileDirectory =>
    rw [readTrimmed] at h
    split at h
    · cases h
    · next hne =>
      obtain rfl := Except.ok.inj h
      constructor <;> rwa [String.toList_ofList]
  | primaryExtension | secondaryExtension =>
    obtain ⟨extension, hread, rfl⟩ := exists_of_map_eq_ok h
    exact normalExtension_of_readExtension htrim hread
  | cacheSize =>
    obtain ⟨bytes, hread, rfl⟩ := exists_of_map_eq_ok h
    cases hparse : Size.parse? value with
    | none =>
      rw [hparse] at hread
      cases hread
    | some n =>
      rw [hparse] at hread
      obtain rfl := Except.ok.inj hread
      exact Size.le_of_parse? hparse
  | cacheMissing =>
    obtain ⟨-, -, rfl⟩ := exists_of_map_eq_ok h
    trivial
  | logLevel =>
    obtain ⟨known, -, rfl⟩ := exists_of_map_eq_ok h
    exact ⟨known, rfl⟩
  | logDirectory =>
    obtain rfl := Except.ok.inj h
    intro p hp
    split_ifs at hp with hnil
    obtain rfl := Option.some_inj.1 hp
    exact normalPath_ofText hhome hnil htrim

/-- What is written of a value in normal form is trimmed, unless it is an extension. -/
theorem Normal.trim_text (h : a.Normal home)
    (hblank : ∀ extension, a.extension? = some extension →
      Text.trim extension.toList = extension.toList) :
    Text.trim a.text.toList = a.text.toList := by
  cases a with
  | sceneryPaths paths =>
    rw [text, Settings.pathsText, String.toList_ofList]
    refine Text.trim_joinWith (fun piece hpiece => ?_) fun piece hpiece => ?_
    · obtain ⟨p, hp, rfl⟩ := List.mem_map.1 hpiece
      exact (h p hp).1.ne_nil
    · obtain ⟨p, hp, rfl⟩ := List.mem_map.1 hpiece
      exact (h p hp).1.trim_eq
  | tileDirectory name => exact h.trim_eq
  | primaryExtension extension | secondaryExtension extension => exact hblank extension rfl
  | cacheSize bytes =>
    rw [text, String.toList_ofList]
    exact Text.trim_of_forall fun c hc => (Size.isDigit_or_isLetter_of_mem_exactText hc).elim
      Decimal.isBlank_of_isDigit Size.isBlank_of_isLetter
  | cacheMissing memoize => cases memoize <;> decide +kernel
  | logLevel level =>
    obtain ⟨known, rfl⟩ := h
    cases known <;> decide +kernel
  | logDirectory directory =>
    cases directory with
    | none => rfl
    | some p => exact (h p rfl).trim_eq

/-- A value in normal form is read as it is written, unless it is an extension with a blank in front. -/
theorem Normal.read_text (h : a.Normal home)
    (hblank : ∀ extension, a.extension? = some extension →
      Text.trim extension.toList = extension.toList) :
    read home a.key a.text = .ok a := by
  rw [read_eq_ok_iff, h.trim_text hblank]
  cases a with
  | sceneryPaths paths =>
    rw [key, text, Settings.pathsText, String.toList_ofList, readTrimmed, readPaths_joinWith h]
  | tileDirectory name => rw [key, text, readTrimmed, if_neg h.ne_nil, String.ofList_toList]
  | primaryExtension extension | secondaryExtension extension =>
    rw [key, text, readTrimmed, NormalExtension.readExtension_eq h]
    rfl
  | cacheSize bytes =>
    rw [key, text, String.toList_ofList, readTrimmed, Size.parse?_exactText h]
    rfl
  | cacheMissing memoize =>
    rw [key, text, readTrimmed, readChoice?_word]
    rfl
  | logLevel level =>
    obtain ⟨known, rfl⟩ := h
    rw [key, text, readTrimmed, parse?_name]
    rfl
  | logDirectory directory =>
    cases directory with
    | none => rfl
    | some p => rw [key, text, readTrimmed, if_neg (h p rfl).ne_nil, (h p rfl).ofText_eq]

/-- An extension that is read as it is written is trimmed: if trimming takes something off, less is left
than was written. -/
theorem trim_of_read_text {extension : String} (ha : a.extension? = some extension)
    (h : read home a.key a.text = .ok a) : Text.trim extension.toList = extension.toList := by
  rw [read_eq_ok_iff] at h
  have hread : readExtension (Text.trim extension.toList) = .ok extension := by
    cases a with
    | primaryExtension extension' | secondaryExtension extension' =>
      obtain rfl := Option.some_inj.1 ha
      obtain ⟨x, hx, hsame⟩ := exists_of_map_eq_ok h
      cases hsame
      exact hx
    | _ => cases ha
  exact (Text.trim_sublist _).eq_of_length_le (length_of_readExtension hread)

/-- A value in normal form is read as it is written, unless it is an extension with a blank in front. -/
theorem Normal.read_text_iff (h : a.Normal home) :
    read home a.key a.text = .ok a
      ↔ ∀ extension, a.extension? = some extension →
        ∀ c, extension.toList.head? = some c → Text.isBlank c = false := by
  constructor
  · intro hread extension ha
    exact (Text.trim_eq_self_iff.1 (trim_of_read_text ha hread)).1
  · intro hhead
    refine h.read_text fun extension ha => Text.trim_eq_self_iff.2 ⟨hhead extension ha, ?_⟩
    cases a with
    | primaryExtension extension' | secondaryExtension extension' =>
      obtain rfl := Option.some_inj.1 ha
      exact h.last_not_blank
    | _ => cases ha

end Assignment

/-! ## Settings -/

namespace Settings

variable {s t : Settings} {home : Option Path} {key : SettingKey}

/-- Settings that come from the standard ones by setting texts, whatever texts they are. -/
inductive Reachable (home : Option Path) : Settings → Prop
  | standard : Reachable home Settings.standard
  | set {s t : Settings} {key : SettingKey} {text : String} :
    Reachable home s → s.set home key text = .ok t → Reachable home t

/-- The standard values are in normal form. -/
theorem normal_standard (home : Option Path) (key : SettingKey) :
    (standard.assignment key).Normal home := by
  cases key with
  | sceneryPaths => exact fun p hp => absurd hp List.not_mem_nil
  | tileDirectory => exact ⟨by decide +kernel, by decide +kernel⟩
  | primaryExtension =>
    have hread : Assignment.readExtension "png".toList = .ok "png" := by decide +kernel
    exact normalExtension_of_readExtension (by decide +kernel) hread
  | secondaryExtension =>
    have hread : Assignment.readExtension "dds".toList = .ok "dds" := by decide +kernel
    exact normalExtension_of_readExtension (by decide +kernel) hread
  | cacheSize => exact (by decide : CacheSettings.standard.maxBytes ≤ Word.unsigned64)
  | cacheMissing => trivial
  | logLevel => exact ⟨.info, rfl⟩
  | logDirectory => exact fun p hp => nomatch hp

/-- Whatever is set, every value is in normal form. -/
theorem Reachable.normal (hhome : ∀ dir, home = some dir → PlainHome dir) (h : Reachable home s)
    (key : SettingKey) : (s.assignment key).Normal home := by
  induction h with
  | standard => exact normal_standard home key
  | set _ hset ih =>
    obtain ⟨a, hread, rfl⟩ := set_eq_ok_iff.1 hset
    rw [assignment_assign]
    split
    · exact Assignment.normal_of_read hhome hread
    · exact ih

/-- A setting is left as it is by what is written of it if that is read as it is written. -/
theorem set_get_eq_ok_iff :
    s.set home key (s.get key) = .ok s
      ↔ Assignment.read home key (s.get key) = .ok (s.assignment key) := by
  rw [set_eq_ok_iff]
  constructor
  · rintro ⟨a, hread, hsame⟩
    have hassigned := assignment_assign s a key
    rw [if_pos (Assignment.key_of_read hread).symm, hsame] at hassigned
    rw [hread, hassigned]
  · intro hread
    exact ⟨_, hread, assign_assignment s key⟩

/-- Whatever texts are set one after another, each setting can be read and written back, which leaves the
settings as they are, unless it is an extension that is stored with a blank in front. -/
theorem Reachable.set_get_iff (hhome : ∀ dir, home = some dir → PlainHome dir)
    (h : Reachable home s) (key : SettingKey) :
    s.set home key (s.get key) = .ok s
      ↔ (key = .primaryExtension ∨ key = .secondaryExtension →
        ∀ c, (s.get key).toList.head? = some c → Text.isBlank c = false) := by
  have hiff := (h.normal hhome key).read_text_iff
  rw [key_assignment, ← get_eq_text] at hiff
  rw [set_get_eq_ok_iff, hiff]
  cases key with
  | primaryExtension | secondaryExtension =>
    simp [assignment, Assignment.extension?, get]
  | _ => simp [assignment, Assignment.extension?]

theorem plainHome_home : ∀ dir, some ⟨"/home"⟩ = some dir → PlainHome dir := by
  rintro dir ⟨⟩
  exact ⟨⟨by decide +kernel, by decide +kernel⟩, by decide +kernel, by decide +kernel⟩

/-- Paths below the home directory, one of them with a tilde of its own. -/
theorem Reachable.set_get_below_home :
    (∀ dir, some ⟨"/home"⟩ = some dir → PlainHome dir)
      ∧ ∃ s, Settings.standard.set (some ⟨"/home"⟩) .sceneryPaths "; ~/a;~/~/b ;;c" = .ok s
        ∧ s.get .sceneryPaths = "/home/a;/home/~/b;c"
        ∧ ∀ key, s.set (some ⟨"/home"⟩) key (s.get key) = .ok s := by
  have hset : Settings.standard.set (some ⟨"/home"⟩) .sceneryPaths "; ~/a;~/~/b ;;c" = .ok _ := rfl
  refine ⟨plainHome_home, _, hset, by decide +kernel, fun key => ?_⟩
  refine (Reachable.set_get_iff plainHome_home (.set .standard hset) key).2 fun hkey c hc => ?_
  rcases hkey with rfl | rfl
  · obtain rfl : 'p' = c := Option.some_inj.1 hc
    decide
  · obtain rfl : 'd' = c := Option.some_inj.1 hc
    decide

/-- A blank between the dots and the name of an extension is stored with it, and lost when what is stored
is set again. -/
theorem set_get_blank_extension :
    (∀ dir, some ⟨"/home"⟩ = some dir → PlainHome dir)
      ∧ ∃ s t, standard.set (some ⟨"/home"⟩) .primaryExtension ". png" = .ok s
        ∧ s.get .primaryExtension = " png"
        ∧ s.set (some ⟨"/home"⟩) .primaryExtension (s.get .primaryExtension) = .ok t
        ∧ t.get .primaryExtension = "png" ∧ t ≠ s := by
  have hread : ∀ {text extension : String} {s : Settings},
      Assignment.readExtension (Text.trim text.toList) = .ok extension →
        s.set (some ⟨"/home"⟩) .primaryExtension text
          = .ok (s.assign (.primaryExtension extension)) := by
    intro text extension s h
    refine set_eq_ok_iff.2 ⟨.primaryExtension extension, ?_, rfl⟩
    rw [Assignment.read_eq_ok_iff, Assignment.readTrimmed, h]
    rfl
  have hfirst : Assignment.readExtension (Text.trim ". png".toList) = .ok " png" := by
    decide +kernel
  have hsecond : Assignment.readExtension (Text.trim " png".toList) = .ok "png" := by
    decide +kernel
  refine ⟨plainHome_home, _, _, hread hfirst, rfl, hread hsecond, rfl, fun hsame => ?_⟩
  have hget := congrArg (Settings.get · .primaryExtension) hsame
  exact absurd hget (by decide +kernel : "png" ≠ " png")

end Settings

end Orthomosaic
