import Orthomosaic.Proofs.FileTree
import Orthomosaic.Proofs.Ini.RoundTrip
import Orthomosaic.Proofs.Settings.NormalForm
import Orthomosaic.Settings.File

/-!
# Settings that load as they were saved

Settings go through two writers and two readers: each value is written as a text and the texts as a
document, and the document and then each value are read again. `Settings.loadBy_saveBy` keeps the two
apart: it asks of documents that what was written under a key is found there again, and of each value
that it is read as it was meant. `Settings.load_save` says that nothing is lost on the way if the texts
among the settings can be stored (`Settings.Storable`).
-/

namespace Orthomosaic

open Ini (Readable)

/-! ## What can be stored -/

/-- A text that is read back as it was written: one without blanks at its ends and without a quote
in front. Any characters may stand in it but a line tabulation and a form feed. -/
structure StorableText (text : String) : Prop where
  ne_nil : text.toList ≠ []
  trim_eq : Text.trim text.toList = text.toList
  readable : ∀ c ∈ text.toList, c ≠ '\x0b' ∧ c ≠ '\x0c'
  unquoted : text.toList.head? ≠ some '\x22' ∧ text.toList.head? ≠ some '\x27'

instance (text : String) : Decidable (StorableText text) :=
  decidable_of_iff (text.toList ≠ [] ∧ Text.trim text.toList = text.toList
      ∧ (text.toList.all fun c => decide (c ≠ '\x0b' ∧ c ≠ '\x0c')) = true
      ∧ text.toList.head? ≠ some '\x22' ∧ text.toList.head? ≠ some '\x27')
    ⟨fun ⟨h, h', h'', h₃⟩ =>
        ⟨h, h', fun c hc => of_decide_eq_true (List.all_eq_true.1 h'' c hc), h₃⟩,
      fun ⟨h, h', h'', h₃⟩ =>
        ⟨h, h', List.all_eq_true.2 fun c hc => decide_eq_true (h'' c hc), h₃⟩⟩

/-- A path that is read back as it was written: one that is not taken for a path below the home
directory. -/
structure StorablePath (p : Path) : Prop extends StorableText p.text where
  not_below_home : ¬ ['~', '/'] <+: p.text.toList

instance (p : Path) : Decidable (StorablePath p) :=
  decidable_of_iff (StorableText p.text ∧ ¬ ['~', '/'] <+: p.text.toList)
    ⟨fun ⟨h, h'⟩ => ⟨h, h'⟩, fun ⟨h, h'⟩ => ⟨h, h'⟩⟩

/-- A file extension that is read back as it was written: one without a dot in front and in lower
case. -/
structure StorableExtension (extension : String) : Prop extends StorableText extension where
  head_ne_dot : extension.toList.head? ≠ some '.'
  not_separator : '/' ∉ extension.toList ∧ '\\' ∉ extension.toList
  lower : ∀ c ∈ extension.toList, ¬ ('A' ≤ c ∧ c ≤ 'Z')

instance (extension : String) : Decidable (StorableExtension extension) :=
  decidable_of_iff (StorableText extension ∧ extension.toList.head? ≠ some '.'
      ∧ ('/' ∉ extension.toList ∧ '\\' ∉ extension.toList)
      ∧ (extension.toList.all fun c => decide (¬ ('A' ≤ c ∧ c ≤ 'Z'))) = true)
    ⟨fun ⟨h, h', h'', h₃⟩ =>
        ⟨h, h', h'', fun c hc => of_decide_eq_true (List.all_eq_true.1 h₃ c hc)⟩,
      fun ⟨h, h', h'', h₃⟩ =>
        ⟨h, h', h'', List.all_eq_true.2 fun c hc => decide_eq_true (h₃ c hc)⟩⟩

/-- Settings that can be stored: texts that are read back, a size of 64 bits, and a log level that is one.
-/
structure Settings.Storable (s : Settings) : Prop where
  sceneryPaths : ∀ p ∈ s.sceneryPaths, StorablePath p ∧ Settings.pathSeparator ∉ p.text.toList
  tileDirectory : StorableText s.cache.layout.directory
  primaryExtension : StorableExtension s.cache.layout.primaryExtension
  secondaryExtension : StorableExtension s.cache.layout.secondaryExtension
  cacheSize : s.cache.maxBytes ≤ Word.unsigned64
  logLevel : ∃ known : LogLevel, known.name = s.logLevel
  logDirectory : ∀ p, s.logDirectory = some p → StorablePath p

/-! ## Values as texts -/

/-- A value that reads back from the line of an entry. -/
structure PlainValue (value : List Char) : Prop where
  trim_eq : Text.trim value = value
  readable : ∀ c ∈ value, c ≠ '\x0b' ∧ c ≠ '\x0c'
  unquoted : value.head? ≠ some '\x22' ∧ value.head? ≠ some '\x27'

/-- The characters of a plain value read back from its line. -/
theorem PlainValue.readable_lineEnd {value : List Char} (h : PlainValue value) :
    ∀ c ∈ value, Readable .lineEnd c := by
  intro c hc
  obtain ⟨htabulation, hformFeed⟩ := h.readable c hc
  refine ⟨htabulation, hformFeed, fun hcloses => ?_⟩
  simp only [Ini.Delimiter.closes, Bool.or_eq_true, beq_iff_eq] at hcloses
  rcases hcloses with rfl | rfl <;> decide

/-- A plain value is not read as a quotation. -/
theorem PlainValue.quotation?_eq_none {value : List Char} (h : PlainValue value) :
    ∀ c, value.head? = some c → Ini.quotation? c = none := by
  intro c hc
  obtain ⟨hdouble, hsingle⟩ := h.unquoted
  rw [hc, ne_eq, Option.some_inj] at hdouble hsingle
  exact (if_neg hdouble).trans (if_neg hsingle)

theorem StorableText.plainValue {text : String} (h : StorableText text) : PlainValue text.toList :=
  ⟨h.trim_eq, h.readable, h.unquoted⟩

/-- A word of digits and letters is a plain value. -/
theorem plainValue_of_word {value : List Char}
    (h : (value.all fun c => Decimal.isDigit c || Size.isLetter c) = true) : PlainValue value := by
  have hword : ∀ c ∈ value, Decimal.isDigit c = true ∨ Size.isLetter c = true := fun c hc =>
    (Bool.or_eq_true ..).mp (List.all_eq_true.1 h c hc)
  have hblank : ∀ c ∈ value, Text.isBlank c = false := fun c hc =>
    (hword c hc).elim Decimal.isBlank_of_isDigit Size.isBlank_of_isLetter
  have hhead : ∀ {x : Char}, value.head? = some x →
      Decimal.isDigit x = true ∨ Size.isLetter x = true := fun hx => hword _ (List.mem_of_head? hx)
  refine ⟨Text.trim_of_forall hblank, fun c hc => ⟨?_, ?_⟩, fun hquote => ?_, fun hquote => ?_⟩
  · rintro rfl
    cases hblank _ hc
  · rintro rfl
    cases hblank _ hc
  · exact absurd (hhead hquote) (by decide)
  · exact absurd (hhead hquote) (by decide)

/-- The scenery roots as one text. -/
theorem plainValue_pathsText {paths : List Path}
    (h : ∀ p ∈ paths, StorablePath p ∧ Settings.pathSeparator ∉ p.text.toList) :
    PlainValue (Text.joinWith Settings.pathSeparator (paths.map (·.text.toList))) := by
  have htexts : ∀ piece ∈ paths.map (·.text.toList), ∃ p ∈ paths, p.text.toList = piece :=
    fun piece hpiece => List.mem_map.1 hpiece
  have hne : ∀ piece ∈ paths.map (·.text.toList), piece ≠ [] := by
    intro piece hpiece
    obtain ⟨p, hp, rfl⟩ := htexts piece hpiece
    exact (h p hp).1.ne_nil
  refine ⟨Text.trim_joinWith hne fun piece hpiece => ?_, fun c hc => ?_, ?_⟩
  · obtain ⟨p, hp, rfl⟩ := htexts piece hpiece
    exact (h p hp).1.trim_eq
  · rcases Text.mem_joinWith hc with rfl | ⟨piece, hpiece, hmem⟩
    · decide
    · obtain ⟨p, hp, rfl⟩ := htexts piece hpiece
      exact (h p hp).1.readable c hmem
  · cases paths with
    | nil => decide
    | cons p paths =>
      rw [List.map_cons, Text.head?_joinWith _ (hne _ (by simp))]
      exact (h p List.mem_cons_self).1.unquoted

namespace Settings

variable {s : Settings} {home : Option Path} {key : SettingKey}

theorem get_logDirectory_of_eq_none (h : s.logDirectory = none) : s.get .logDirectory = "" := by
  rw [get, h]

theorem get_logDirectory_of_eq_some {p : Path} (h : s.logDirectory = some p) :
    s.get .logDirectory = p.text := by
  rw [get, h]

/-- Every value is plain. -/
theorem Storable.plainValue_get (h : s.Storable) (key : SettingKey) :
    PlainValue (s.get key).toList := by
  cases key with
  | sceneryPaths =>
    rw [get, pathsText, String.toList_ofList]
    exact plainValue_pathsText h.sceneryPaths
  | tileDirectory => exact h.tileDirectory.plainValue
  | primaryExtension => exact h.primaryExtension.plainValue
  | secondaryExtension => exact h.secondaryExtension.plainValue
  | cacheSize =>
    rw [get, String.toList_ofList]
    exact plainValue_of_word (List.all_eq_true.2 fun c hc =>
      (Bool.or_eq_true ..).mpr (Size.isDigit_or_isLetter_of_mem_exactText hc))
  | cacheMissing =>
    change PlainValue (if s.cache.memoizeMissing then "true" else "false").toList
    cases s.cache.memoizeMissing <;> exact plainValue_of_word (by decide +kernel)
  | logLevel =>
    obtain ⟨known, hknown⟩ := h.logLevel
    rw [get, ← hknown]
    cases known <;> exact plainValue_of_word (by decide +kernel)
  | logDirectory =>
    cases hdirectory : s.logDirectory with
    | none =>
      rw [get_logDirectory_of_eq_none hdirectory]
      exact plainValue_of_word (by decide +kernel)
    | some p =>
      rw [get_logDirectory_of_eq_some hdirectory]
      exact (h.logDirectory p hdirectory).plainValue

end Settings

/-! ## Values read again -/

theorem StorablePath.normalPath {p : Path} (h : StorablePath p) (home : Option Path) :
    NormalPath home p :=
  TrimmedText.normalPath ⟨h.ne_nil, h.trim_eq⟩ home h.not_below_home

/-- An extension that can be stored is in normal form. -/
theorem StorableExtension.normalExtension {extension : String} (h : StorableExtension extension) :
    NormalExtension extension :=
  { ne_nil := h.ne_nil
    head_ne_dot := h.head_ne_dot
    not_separator := h.not_separator
    lower := h.lower
    last_not_blank := (Text.trim_eq_self_iff.1 h.trim_eq).2 }

namespace Settings

variable {s : Settings} {home : Option Path} {key : SettingKey}

/-- Settings that can be stored are in the form in which they are read. -/
theorem Storable.normal (h : s.Storable) (home : Option Path) (key : SettingKey) :
    (s.assignment key).Normal home := by
  cases key with
  | sceneryPaths =>
    intro p hp
    exact ⟨(h.sceneryPaths p hp).1.normalPath home, (h.sceneryPaths p hp).2⟩
  | tileDirectory => exact ⟨h.tileDirectory.ne_nil, h.tileDirectory.trim_eq⟩
  | primaryExtension => exact h.primaryExtension.normalExtension
  | secondaryExtension => exact h.secondaryExtension.normalExtension
  | cacheSize => exact h.cacheSize
  | cacheMissing => trivial
  | logLevel => exact h.logLevel
  | logDirectory => exact fun p hp => (h.logDirectory p hp).normalPath home

/-- What is written for a setting is read as the change that it was written for. -/
theorem Storable.read_get (h : s.Storable) (home : Option Path) (key : SettingKey) :
    Assignment.read home key (s.get key) = .ok (s.assignment key) := by
  have hread := (h.normal home key).read_text fun extension hextension => by
    cases key with
    | primaryExtension =>
      obtain rfl := Option.some_inj.1 hextension
      exact h.primaryExtension.trim_eq
    | secondaryExtension =>
      obtain rfl := Option.some_inj.1 hextension
      exact h.secondaryExtension.trim_eq
    | _ => cases hextension
  rwa [key_assignment, ← get_eq_text] at hread

/-! ## The document -/

/-- The first of the values with a key is the value that the key is turned into. -/
theorem find?_filterMap_of_key {α β κ : Type} [BEq κ] [LawfulBEq κ] {f : α → Option β} {k : α → κ}
    {k' : β → κ} {xs : List α} {a : α} (hkey : ∀ x y, f x = some y → k' y = k x) (ha : a ∈ xs)
    (hinj : ∀ x ∈ xs, k x = k a → x = a) : (xs.filterMap f).find? (k' · == k a) = f a := by
  have hfound : ∀ x y, f x = some y → (k' y == k a) = true → x ∈ xs → x = a := by
    intro x y hy hk hx
    rw [hkey x y hy, beq_iff_eq] at hk
    exact hinj x hx hk
  cases hfind : (xs.filterMap f).find? (k' · == k a) with
  | some y =>
    have hk := List.find?_some hfind
    obtain ⟨x, hx, hy⟩ := List.mem_filterMap.1 (List.mem_of_find?_eq_some hfind)
    rw [← hfound x y hy hk hx, hy]
  | none =>
    rw [List.find?_eq_none] at hfind
    cases hfa : f a with
    | none => rfl
    | some y =>
      have hnot := hfind y (List.mem_filterMap.2 ⟨a, ha, hfa⟩)
      rw [hkey a y hfa] at hnot
      exact absurd BEq.rfl hnot

/-- The keys of a section. -/
def keysOf (name : String) : List SettingKey :=
  SettingKey.all.filter (·.sectionName == name)

theorem entryName_inj {key other : SettingKey} (hsection : other.sectionName = key.sectionName)
    (h : other.entryName = key.entryName) : other = key := by
  revert hsection h
  cases key <;> cases other <;> decide +kernel

/-- A section has its name and the entries of its keys. -/
theorem section?_eq_some {name : String} {sec : Ini.Section} (h : s.section? name = some sec) :
    sec = ⟨name.toList, (keysOf name).filterMap s.entry?⟩ := by
  unfold section? at h
  split at h
  · cases h
  · exact (Option.some.inj h).symm

/-- A section that is not written has no entries. -/
theorem section?_eq_none {name : String} (h : s.section? name = none) :
    (keysOf name).filterMap s.entry? = [] := by
  unfold section? at h
  split at h
  · assumption
  · cases h

/-- An entry has the name of its key and the value of the setting. -/
theorem entry?_eq_some {e : Ini.Entry} (h : s.entry? key = some e) :
    e = ⟨key.entryName.toList, (s.get key).toList⟩ := by
  unfold entry? at h
  dsimp only at h
  split at h
  · cases h
  · exact (Option.some.inj h).symm

/-- The document gives each key the value of its entry, although two sections have a key of one
name. -/
theorem valueIn?_toDocument (s : Settings) (key : SettingKey) :
    valueIn? s.toDocument key = (s.entry? key).map fun e => String.ofList e.value := by
  have hkey : key ∈ keysOf key.sectionName :=
    List.mem_filter.2 ⟨SettingKey.mem_all key, BEq.rfl⟩
  have hentries : ((keysOf key.sectionName).filterMap s.entry?).find?
      (·.key == key.entryName.toList) = s.entry? key := by
    refine find?_filterMap_of_key (k := fun key => key.entryName.toList) ?_ hkey ?_
    · intro other e he
      rw [entry?_eq_some he]
    · intro other hother hname
      exact entryName_inj (beq_iff_eq.1 (List.mem_filter.1 hother).2) (String.toList_inj.1 hname)
  have hsections : s.toDocument.sections.find? (·.name == key.sectionName.toList)
      = s.section? key.sectionName := by
    refine find?_filterMap_of_key (k := String.toList) ?_ ?_ ?_
    · intro name sec hsec
      rw [section?_eq_some hsec]
    · cases key <;> decide
    · intro name _ hname
      exact String.toList_inj.1 hname
  unfold valueIn? Ini.Document.get?
  rw [hsections]
  cases hsec : s.section? key.sectionName with
  | none =>
    rw [section?_eq_none hsec] at hentries
    rw [← hentries]
    rfl
  | some sec =>
    rw [section?_eq_some hsec]
    simp only [Option.bind_eq_bind, Option.bind_some]
    rw [hentries]
    cases s.entry? key <;> rfl

/-- The name of a key is written so that it reads back. -/
theorem plain_entryName (key : SettingKey) :
    key.entryName.toList ≠ [] ∧ Text.trim key.entryName.toList = key.entryName.toList
      ∧ (∀ c ∈ key.entryName.toList, Readable .separator c)
      ∧ ∀ c ∈ key.entryName.toList, c ≠ ';' ∧ c ≠ '#' ∧ c ≠ '[' := by
  have hnames : key.entryName.toList ≠ [] ∧ Text.trim key.entryName.toList = key.entryName.toList
      ∧ (key.entryName.toList.all fun c =>
        decide (Readable .separator c ∧ c ≠ ';' ∧ c ≠ '#' ∧ c ≠ '[')) = true := by
    cases key <;> decide +kernel
  obtain ⟨hne, htrim, hall⟩ := hnames
  have hplain := fun c hc => of_decide_eq_true (List.all_eq_true.1 hall c hc)
  exact ⟨hne, htrim, fun c hc => (hplain c hc).1, fun c hc => (hplain c hc).2⟩

/-- The name of a section is written so that it reads back. -/
theorem plain_sectionName {name : String} (h : name ∈ sectionNames) :
    Text.trim name.toList = name.toList ∧ ∀ c ∈ name.toList, Readable .bracket c := by
  have hnames : ∀ name ∈ sectionNames, Text.trim name.toList = name.toList
      ∧ (name.toList.all fun c => decide (Readable .bracket c)) = true := by decide +kernel
  obtain ⟨htrim, hall⟩ := hnames name h
  exact ⟨htrim, fun c hc => of_decide_eq_true (List.all_eq_true.1 hall c hc)⟩

/-- Every section of the document is plain. -/
theorem Storable.plain_sections (h : s.Storable) : ∀ sec ∈ s.toDocument.sections, sec.Plain := by
  intro sec hsec
  obtain ⟨name, hname, hsome⟩ := List.mem_filterMap.1 hsec
  obtain ⟨htrim, hreadable⟩ := plain_sectionName hname
  rw [section?_eq_some hsome]
  refine ⟨htrim, hreadable, fun e he => ?_⟩
  obtain ⟨key, -, hentry⟩ := List.mem_filterMap.1 he
  obtain ⟨hne, htrim, hreadable, hhead⟩ := plain_entryName key
  have hvalue := h.plainValue_get key
  rw [entry?_eq_some hentry]
  exact
    { key_ne_nil := hne
      trim_key := htrim
      readable_key := hreadable
      head_key := fun c hc => hhead c (List.mem_of_head? hc)
      trim_value := hvalue.trim_eq
      readable_value := hvalue.readable_lineEnd
      head_value := hvalue.quotation?_eq_none }

/-- Only the scenery roots and the directory of log files can be set to nothing, which for the latter is
its standard value. -/
theorem eq_standard_of_read_empty {a : Assignment} (hkey : key ≠ .sceneryPaths)
    (h : Assignment.read home key "" = .ok a) : a = standard.assignment key := by
  cases key with
  | sceneryPaths => exact absurd rfl hkey
  | logDirectory => exact (Except.ok.inj h).symm
  | tileDirectory | primaryExtension | secondaryExtension | cacheSize | cacheMissing | logLevel =>
    cases h

/-- A document describes the settings if it has under their keys what is written for them, and that is
read as it was meant. -/
theorem ofDocument_of_valueIn?_eq {d : Ini.Document}
    (hvalues : ∀ key, Assignment.read home key (s.get key) = .ok (s.assignment key))
    (hsame : ∀ key, valueIn? d key = valueIn? s.toDocument key) : ofDocument home d = .ok s := by
  refine ofDocument_eq_ok_iff.2 fun key => ?_
  rw [valueFrom, hsame, valueIn?_toDocument, entry?]
  by_cases hwritten : (s.get key).toList = [] ∧ key ≠ .sceneryPaths
  · have hempty : s.get key = "" := String.toList_inj.1 hwritten.1
    rw [if_pos hwritten]
    exact congrArg Except.ok (eq_standard_of_read_empty hwritten.2 (hempty ▸ hvalues key)).symm
  · rw [if_neg hwritten, Option.map_some, String.ofList_toList]
    exact hvalues key

/-! ## Files -/

/-- Settings survive any way of writing and reading documents that gives back under their keys what was
written there, if each of these texts is read as it was meant. -/
theorem loadBy_saveBy {render : Ini.Document → List Char}
    {parse : List Char → Except Ini.SyntaxError Ini.Document} {d : Ini.Document}
    (hvalues : ∀ key, Assignment.read home key (s.get key) = .ok (s.assignment key))
    (hparse : parse (render s.toDocument) = .ok d)
    (hsame : ∀ key, valueIn? d key = valueIn? s.toDocument key) {tree : FileTree (List UInt8)}
    {p : Path} (hp : (tree.put p []).1 = true) :
    (s.saveBy render tree p).1 = .ok ()
      ∧ loadBy parse home (s.saveBy render tree p).2 p = .ok s := by
  have hput : (tree.put p (Text.encode (String.ofList (render s.toDocument)))).1 = true :=
    (FileTree.put_fst_congr tree p _ []).trans hp
  have hfile := FileTree.find?_of_put hput
  have hsave : s.saveBy render tree p
      = (.ok (), (tree.put p (Text.encode (String.ofList (render s.toDocument)))).2) := by
    unfold saveBy
    dsimp only
    rw [hput]
    rfl
  rw [hsave]
  refine ⟨rfl, ?_⟩
  unfold loadBy
  dsimp only
  rw [hfile]
  dsimp only
  rw [Text.decode?_encode]
  dsimp only
  rw [String.toList_ofList, hparse]
  dsimp only
  rw [ofDocument_of_valueIn?_eq hvalues hsame]
  rfl

/-- Where a file can be put, settings that can be stored are saved, and the same settings are loaded
from there. -/
theorem load_save (home : Option Path) (h : s.Storable) {tree : FileTree (List UInt8)} {p : Path}
    (hp : (tree.put p []).1 = true) :
    (s.save tree p).1 = .ok () ∧ load home (s.save tree p).2 p = .ok s :=
  loadBy_saveBy (h.read_get home) (Ini.parse_render rfl h.plain_sections) (fun _ => rfl) hp

/-- Backslashes, a comment mark and an equals sign in the paths, an odd number of bytes, and a directory
of log files, in a file below a directory that is yet to be made. -/
theorem load_save_below_new_directory :
    ∃ (s : Settings) (tree : FileTree (List UInt8)) (p : Path),
      s = { Settings.standard with
          sceneryPaths := [⟨"C:\\new\\x00#2"⟩, ⟨"/srv/a=b"⟩]
          cache := { CacheSettings.standard with maxBytes := 18446744073709551615 }
          logLevel := "trace", logDirectory := some ⟨"logs"⟩ }
        ∧ s.Storable ∧ tree = .empty [['w']] ∧ p = ⟨"settings/config.ini"⟩
        ∧ (tree.put p []).1 = true
        ∧ (s.save tree p).1 = .ok () ∧ load none (s.save tree p).2 p = .ok s := by
  let s : Settings := { Settings.standard with
    sceneryPaths := [⟨"C:\\new\\x00#2"⟩, ⟨"/srv/a=b"⟩]
    cache := { CacheSettings.standard with maxBytes := 18446744073709551615 }
    logLevel := "trace", logDirectory := some ⟨"logs"⟩ }
  have h : s.Storable :=
    { sceneryPaths := by decide +kernel
      tileDirectory := by decide +kernel
      primaryExtension := by decide +kernel
      secondaryExtension := by decide +kernel
      cacheSize := by decide
      logLevel := ⟨.trace, rfl⟩
      logDirectory := by
        rintro p ⟨⟩
        decide +kernel }
  have hp : ((FileTree.empty [['w']] : FileTree (List UInt8)).put ⟨"settings/config.ini"⟩ []).1
      = true := by decide +kernel
  obtain ⟨hsave, hload⟩ := load_save none h hp
  exact ⟨s, _, _, rfl, h, rfl, rfl, hp, hsave, hload⟩

end Settings

end Orthomosaic
