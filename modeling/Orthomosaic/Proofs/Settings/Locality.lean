import Mathlib.Data.List.Nodup
import Orthomosaic.Settings.File

/-!
# Settings apart from each other

Each setting is a place of its own. A change is seen at its key and nowhere else
(`Settings.assignment_assign`), and the text that asks for it is read without a look at the settings. So
texts for different keys can be set in either order, and a document is carried out key by key without one
key being in the way of another: `Settings.ofDocument_eq_ok_iff` says what it makes of each setting, and
`Settings.exists_ofDocument_eq_error_iff` when it is refused.

What `Settings.setInPlace` does to a record of settings is the same, and it leaves the record as it was
whenever it fails (`Settings.run_setInPlace`).
-/

namespace Orthomosaic

/-! ## Documents without repeats -/

/-- Of entries that differ in what they are looked up by, the one that is looked up is found. -/
theorem find?_eq_some_iff_of_nodup {α κ : Type} [BEq κ] [LawfulBEq κ] {f : α → κ} {xs : List α}
    {k : κ} {x : α} (h : (xs.map f).Nodup) : xs.find? (f · == k) = some x ↔ x ∈ xs ∧ f x = k := by
  induction xs with
  | nil => simp
  | cons y xs ih =>
    obtain ⟨hy, hrest⟩ := List.nodup_cons.1 h
    rw [List.find?_cons]
    by_cases hk : f y = k
    · subst hk
      simp only [BEq.rfl, Option.some_inj, List.mem_cons]
      constructor
      · rintro rfl
        exact ⟨.inl rfl, rfl⟩
      · rintro ⟨rfl | hx, hsame⟩
        · rfl
        · exact absurd (hsame ▸ List.mem_map_of_mem hx) hy
    · have hne : (f y == k) = false := by simpa using hk
      rw [hne, ih hrest, List.mem_cons]
      constructor
      · exact fun ⟨hx, hsame⟩ => ⟨.inr hx, hsame⟩
      · rintro ⟨rfl | hx, hsame⟩
        · exact absurd hsame hk
        · exact ⟨hx, hsame⟩

namespace Ini.Document

variable {d : Document} {name key value : List Char}

/-- A document gives a key a value under a heading, wherever it does so. -/
def Gives (d : Document) (name key value : List Char) : Prop :=
  ∃ sec ∈ d.sections, sec.name = name ∧ ⟨key, value⟩ ∈ sec.entries

/-- No heading stands twice in a document, and no key stands twice under a heading. -/
structure Distinct (d : Document) : Prop where
  names : (d.sections.map (·.name)).Nodup
  keys : ∀ sec ∈ d.sections, (sec.entries.map (·.key)).Nodup

/-- Where nothing is repeated, a lookup finds what the document gives, wherever it stands. -/
theorem Distinct.get?_eq_some_iff (h : d.Distinct) :
    d.get? name key = some value ↔ d.Gives name key value := by
  unfold get? Gives
  simp only [Option.bind_eq_bind, Option.bind_eq_some_iff, find?_eq_some_iff_of_nodup h.names]
  constructor
  · rintro ⟨sec, ⟨hsec, hname⟩, ⟨k, v⟩, he, hv⟩
    rw [find?_eq_some_iff_of_nodup (h.keys sec hsec)] at he
    obtain ⟨hmem, rfl⟩ := he
    obtain rfl := Option.some_inj.1 hv
    exact ⟨sec, hsec, hname, hmem⟩
  · rintro ⟨sec, hsec, hname, hmem⟩
    exact ⟨sec, ⟨hsec, hname⟩, ⟨key, value⟩,
      (find?_eq_some_iff_of_nodup (h.keys sec hsec)).2 ⟨hmem, rfl⟩, rfl⟩

end Ini.Document

/-! ## Places -/

/-- What is mapped successfully was a success before. -/
theorem exists_of_map_eq_ok {ε α β : Type} {f : α → β} {x : Except ε α} {y : β}
    (h : x.map f = .ok y) : ∃ a, x = .ok a ∧ f a = y := by
  cases x with
  | error e => cases h
  | ok a => exact ⟨a, rfl, Except.ok.inj h⟩

namespace Assignment

/-- The key of the setting that is changed. -/
def key : Assignment → SettingKey
  | sceneryPaths _ => .sceneryPaths
  | tileDirectory _ => .tileDirectory
  | primaryExtension _ => .primaryExtension
  | secondaryExtension _ => .secondaryExtension
  | cacheSize _ => .cacheSize
  | cacheMissing _ => .cacheMissing
  | logLevel _ => .logLevel
  | logDirectory _ => .logDirectory

/-- What is written for the setting that is changed. -/
def text : Assignment → String
  | sceneryPaths paths => Settings.pathsText paths
  | tileDirectory name => name
  | primaryExtension extension => extension
  | secondaryExtension extension => extension
  | cacheSize bytes => String.ofList (Size.exactText bytes)
  | cacheMissing memoize => if memoize then "true" else "false"
  | logLevel level => level
  | logDirectory none => ""
  | logDirectory (some directory) => directory.text

theorem read_eq_ok_iff {home : Option Path} {k : SettingKey} {text : String} {a : Assignment} :
    read home k text = .ok a ↔ readTrimmed home (Text.trim text.toList) k = .ok a := by
  unfold read
  dsimp only
  split <;> simp_all

/-- What a text asks for at a key is a change at that key. -/
theorem key_of_read {home : Option Path} {k : SettingKey} {text : String} {a : Assignment}
    (h : read home k text = .ok a) : a.key = k := by
  rw [read_eq_ok_iff] at h
  generalize Text.trim text.toList = value at h
  cases k with
  | sceneryPaths | logDirectory =>
    obtain rfl := Except.ok.inj h
    rfl
  | tileDirectory =>
    rw [readTrimmed] at h
    split at h
    · cases h
    · obtain rfl := Except.ok.inj h
      rfl
  | primaryExtension | secondaryExtension | cacheSize | cacheMissing | logLevel =>
    obtain ⟨x, -, rfl⟩ := exists_of_map_eq_ok h
    rfl

end Assignment

namespace Settings

variable {s t : Settings} {home : Option Path} {key other : SettingKey} {text : String}

/-- The change that sets a setting to what it is here. -/
def assignment (s : Settings) : SettingKey → Assignment
  | .sceneryPaths => .sceneryPaths s.sceneryPaths
  | .tileDirectory => .tileDirectory s.cache.layout.directory
  | .primaryExtension => .primaryExtension s.cache.layout.primaryExtension
  | .secondaryExtension => .secondaryExtension s.cache.layout.secondaryExtension
  | .cacheSize => .cacheSize s.cache.maxBytes
  | .cacheMissing => .cacheMissing s.cache.memoizeMissing
  | .logLevel => .logLevel s.logLevel
  | .logDirectory => .logDirectory s.logDirectory

@[simp] theorem key_assignment (s : Settings) (key : SettingKey) : (s.assignment key).key = key := by
  cases key <;> rfl

/-- A change is seen at its key, and nowhere else. -/
theorem assignment_assign (s : Settings) (a : Assignment) (key : SettingKey) :
    (s.assign a).assignment key = if key = a.key then a else s.assignment key := by
  cases a <;> cases key <;> rfl

/-- Settings are the same if each of them is. -/
theorem eq_of_assignment_eq (h : ∀ key, s.assignment key = t.assignment key) : s = t := by
  obtain ⟨paths, ⟨bytes, missing, ⟨directory, primary, secondary⟩⟩, level, log⟩ := s
  obtain ⟨paths', ⟨bytes', missing', ⟨directory', primary', secondary'⟩⟩, level', log'⟩ := t
  cases h .sceneryPaths
  cases h .tileDirectory
  cases h .primaryExtension
  cases h .secondaryExtension
  cases h .cacheSize
  cases h .cacheMissing
  cases h .logLevel
  cases h .logDirectory
  rfl

/-- A setting is shown as what is written for it. -/
theorem get_eq_text (s : Settings) (key : SettingKey) : s.get key = (s.assignment key).text := by
  cases key with
  | logDirectory => cases hlog : s.logDirectory <;> simp only [get, assignment, hlog] <;> rfl
  | _ => rfl

theorem get_congr (h : s.assignment key = t.assignment key) : s.get key = t.get key := by
  rw [get_eq_text, get_eq_text, h]

/-- Setting a setting to what it is changes nothing. -/
@[simp] theorem assign_assignment (s : Settings) (key : SettingKey) :
    s.assign (s.assignment key) = s := by
  refine eq_of_assignment_eq fun other => ?_
  rw [assignment_assign, key_assignment]
  split
  · next h => rw [h]
  · rfl

/-- Changes of different settings can be made in either order. -/
theorem assign_assign_comm (s : Settings) {a b : Assignment} (h : a.key ≠ b.key) :
    (s.assign a).assign b = (s.assign b).assign a := by
  refine eq_of_assignment_eq fun key => ?_
  simp only [assignment_assign]
  by_cases ha : key = a.key
  · rw [if_pos ha, if_pos ha, if_neg (ha ▸ h)]
  · rw [if_neg ha, if_neg ha]

/-! ## Texts for settings -/

theorem set_eq_ok_iff :
    s.set home key text = .ok t ↔ ∃ a, Assignment.read home key text = .ok a ∧ s.assign a = t := by
  unfold set
  cases Assignment.read home key text <;> simp [Except.map]

/-- Whether a text is refused does not depend on the settings. -/
theorem set_eq_error_iff {e : InvalidValue} :
    s.set home key text = .error e ↔ Assignment.read home key text = .error e := by
  unfold set
  cases Assignment.read home key text <;> simp [Except.map]

theorem assignment_of_set (h : s.set home key text = .ok t) (hne : other ≠ key) :
    t.assignment other = s.assignment other := by
  obtain ⟨a, hread, rfl⟩ := set_eq_ok_iff.1 h
  rw [assignment_assign, Assignment.key_of_read hread, if_neg hne]

/-- Two texts are set if both can be read. -/
theorem set_set_eq_ok_iff {text' : String} :
    (s.set home key text >>= fun s' => s'.set home other text') = .ok t
      ↔ ∃ a b, Assignment.read home key text = .ok a ∧ Assignment.read home other text' = .ok b
        ∧ (s.assign a).assign b = t := by
  cases hread : s.set home key text with
  | error e =>
    rw [set_eq_error_iff] at hread
    simp [hread, bind, Except.bind]
  | ok s' =>
    obtain ⟨a, ha, rfl⟩ := set_eq_ok_iff.1 hread
    change set home (s.assign a) other text' = .ok t ↔ _
    rw [set_eq_ok_iff]
    simp [ha]

/-- Texts for different keys can be set the other way round. -/
theorem set_set_swap (hne : other ≠ key) {text' : String}
    (h : (s.set home key text >>= fun s' => s'.set home other text') = .ok t) :
    (s.set home other text' >>= fun s' => s'.set home key text) = .ok t := by
  obtain ⟨a, b, ha, hb, rfl⟩ := set_set_eq_ok_iff.1 h
  have hkeys : b.key ≠ a.key := by
    rwa [Assignment.key_of_read ha, Assignment.key_of_read hb]
  exact set_set_eq_ok_iff.2 ⟨b, a, hb, ha, assign_assign_comm s hkeys⟩

/-- Texts for different keys can be set in either order. -/
theorem set_set_comm (hne : other ≠ key) {text' : String} :
    (s.set home key text >>= fun s' => s'.set home other text') = .ok t
      ↔ (s.set home other text' >>= fun s' => s'.set home key text) = .ok t :=
  ⟨set_set_swap hne, set_set_swap hne.symm⟩

/-! ## Settings changed in place -/

/-- In place, a text does what it does otherwise, and one that is refused leaves the settings as they
were. -/
theorem run_setInPlace (home : Option Path) (key : SettingKey) (text : String) (s : Settings) :
    (setInPlace home key text).run s
      = match s.set home key text with
        | .ok t => .ok () t
        | .error e => .error e s := by
  unfold setInPlace set Assignment.read
  generalize Text.trim text.toList = value
  cases key with
  | sceneryPaths => rfl
  | tileDirectory | logDirectory => by_cases h : value = [] <;> simp [h, Assignment.readTrimmed] <;> rfl
  | primaryExtension | secondaryExtension =>
    dsimp only [Assignment.readTrimmed]
    cases Assignment.readExtension value <;> rfl
  | cacheSize =>
    dsimp only [Assignment.readTrimmed]
    cases Size.parse? value <;> rfl
  | cacheMissing =>
    dsimp only [Assignment.readTrimmed]
    cases Assignment.readChoice? value <;> rfl
  | logLevel =>
    dsimp only [Assignment.readTrimmed]
    cases LogLevel.parse? value <;> rfl

/-! ## Settings set by a document -/

variable {d d' : Ini.Document} {keys : List SettingKey}

/-- The settings with one of them set to what a document gives its key. -/
def setFrom (home : Option Path) (d : Ini.Document) (acc : Settings) (key : SettingKey) :
    Except InvalidValue Settings :=
  match valueIn? d key with
  | some value => acc.set home key value
  | none => .ok acc

/-- What a document makes of a setting: what it gives, or what the setting is already. -/
def valueFrom (home : Option Path) (d : Ini.Document) (s : Settings) (key : SettingKey) :
    Except InvalidValue Assignment :=
  match valueIn? d key with
  | some value => Assignment.read home key value
  | none => .ok (s.assignment key)

theorem key_of_valueFrom {a : Assignment} (h : valueFrom home d s key = .ok a) : a.key = key := by
  unfold valueFrom at h
  split at h
  · exact Assignment.key_of_read h
  · obtain rfl := Except.ok.inj h
    exact key_assignment s key

theorem valueFrom_congr (home : Option Path) (d : Ini.Document)
    (h : s.assignment key = t.assignment key) :
    valueFrom home d s key = valueFrom home d t key := by
  rw [valueFrom, valueFrom, h]

theorem setFrom_eq (home : Option Path) (d : Ini.Document) (s : Settings) (key : SettingKey) :
    setFrom home d s key = (valueFrom home d s key).map s.assign := by
  unfold setFrom valueFrom
  cases valueIn? d key with
  | some value => rfl
  | none => simp [Except.map]

/-- Setting keys one after another sets each of them to what the document makes of it at the start, and
no other. -/
theorem foldlM_setFrom_eq_ok_iff (hkeys : keys.Nodup) :
    keys.foldlM (setFrom home d) s = .ok t
      ↔ ∀ key, if key ∈ keys then valueFrom home d s key = .ok (t.assignment key)
        else t.assignment key = s.assignment key := by
  induction keys generalizing s with
  | nil =>
    simp only [List.foldlM_nil, List.not_mem_nil, if_false]
    constructor
    · intro h key
      rw [Except.ok.inj h]
    · intro h
      exact congrArg Except.ok (eq_of_assignment_eq fun key => (h key).symm)
  | cons k keys ih =>
    obtain ⟨hk, hrest⟩ := List.nodup_cons.1 hkeys
    rw [List.foldlM_cons, setFrom_eq]
    cases hvalue : valueFrom home d s k with
    | error e =>
      constructor
      · intro h
        cases h
      · intro h
        have hat := h k
        rw [if_pos List.mem_cons_self, hvalue] at hat
        cases hat
    | ok a =>
      obtain rfl := key_of_valueFrom hvalue
      change keys.foldlM (setFrom home d) (s.assign a) = .ok t ↔ _
      rw [ih hrest]
      refine forall_congr' fun key => ?_
      by_cases hsame : key = a.key
      · -- the keys that follow leave this one as it is set now
        subst hsame
        rw [if_neg hk, if_pos List.mem_cons_self, hvalue, assignment_assign, if_pos rfl,
          Except.ok.injEq, eq_comm]
      · have hother : (s.assign a).assignment key = s.assignment key := by
          rw [assignment_assign, if_neg hsame]
        rw [valueFrom_congr home d hother, hother]
        simp [hsame]

/-- If setting keys one after another fails, the document gives one of them a text that is refused. -/
theorem exists_of_foldlM_setFrom_eq_error {e : InvalidValue}
    (h : keys.foldlM (setFrom home d) s = .error e) :
    ∃ key value, valueIn? d key = some value ∧ Assignment.read home key value = .error e := by
  induction keys generalizing s with
  | nil => cases h
  | cons k keys ih =>
    rw [List.foldlM_cons] at h
    cases hset : setFrom home d s k with
    | ok s' =>
      rw [hset] at h
      exact ih h
    | error e' =>
      rw [hset] at h
      obtain rfl : e' = e := Except.error.inj h
      unfold setFrom at hset
      split at hset
      · next value hvalue => exact ⟨k, value, hvalue, set_eq_error_iff.1 hset⟩
      · cases hset

/-- The settings that a document describes are what it makes of the standard ones. -/
theorem ofDocument_eq_ok_iff :
    ofDocument home d = .ok t ↔ ∀ key, valueFrom home d standard key = .ok (t.assignment key) := by
  have hall : SettingKey.all.Nodup := by decide
  change SettingKey.all.foldlM (setFrom home d) standard = .ok t ↔ _
  rw [foldlM_setFrom_eq_ok_iff hall]
  simp [SettingKey.mem_all]

/-- A document is refused if it gives some key a text that is refused. -/
theorem exists_ofDocument_eq_error_iff :
    (∃ e, ofDocument home d = .error e)
      ↔ ∃ key value, valueIn? d key = some value
        ∧ ∃ e, Assignment.read home key value = .error e := by
  constructor
  · rintro ⟨e, h⟩
    obtain ⟨key, value, hvalue, hread⟩ := exists_of_foldlM_setFrom_eq_error h
    exact ⟨key, value, hvalue, e, hread⟩
  · rintro ⟨key, value, hvalue, e, hread⟩
    cases h : ofDocument home d with
    | error e' => exact ⟨e', rfl⟩
    | ok t =>
      have hat := ofDocument_eq_ok_iff.1 h key
      simp only [valueFrom, hvalue, hread] at hat
      cases hat

/-- Where nothing is repeated, documents that give the keys the same values describe the same settings. -/
theorem ofDocument_congr (h : d.Distinct) (h' : d'.Distinct)
    (hsame : ∀ (key : SettingKey) (value : List Char),
      d.Gives key.sectionName.toList key.entryName.toList value
        ↔ d'.Gives key.sectionName.toList key.entryName.toList value) :
    ofDocument home d = ofDocument home d' := by
  have hvalue : ∀ key, valueIn? d key = valueIn? d' key := by
    intro key
    refine congrArg (Option.map String.ofList) (Option.ext fun value => ?_)
    rw [h.get?_eq_some_iff, h'.get?_eq_some_iff, hsame]
  simp only [ofDocument, hvalue]

/-! ## Settings in a file -/

/-- What is read at a path is a document. -/
def Reads (tree : FileTree (List UInt8)) (p : Path) (d : Ini.Document) : Prop :=
  ∃ bytes text, tree.find? p = some (.file bytes) ∧ Text.decode? bytes = some text
    ∧ Ini.parse text.toList = .ok d

theorem load_of_reads {tree : FileTree (List UInt8)} {p : Path} (home : Option Path)
    (h : Reads tree p d) : load home tree p = (ofDocument home d).mapError .invalid := by
  obtain ⟨bytes, text, hfile, hdecode, hparse⟩ := h
  simp [load, loadBy, hfile, hdecode, hparse]

theorem load_eq_ok_iff {tree : FileTree (List UInt8)} {p : Path} (h : Reads tree p d) :
    load home tree p = .ok s ↔ ofDocument home d = .ok s := by
  rw [load_of_reads home h]
  cases ofDocument home d <;> simp [Except.mapError]

/-- A file is refused if it gives some key a text that is refused. -/
theorem exists_load_eq_error_iff {tree : FileTree (List UInt8)} {p : Path} (h : Reads tree p d) :
    (∃ e, load home tree p = .error e)
      ↔ ∃ key value, valueIn? d key = some value ∧ ∃ e, standard.set home key value = .error e := by
  simp only [load_of_reads home h, set_eq_error_iff, ← exists_ofDocument_eq_error_iff]
  cases ofDocument home d <;> simp [Except.mapError]

theorem assignment_eq_of_read {a : Assignment} (h : Assignment.read home key text = .ok a) :
    ∃ t, s.set home key text = .ok t ∧ t.assignment key = a := by
  refine ⟨s.assign a, set_eq_ok_iff.2 ⟨a, h, rfl⟩, ?_⟩
  rw [assignment_assign, Assignment.key_of_read h, if_pos rfl]

/-- Each setting that is loaded is what its text alone makes of it, or has its standard value. -/
theorem assignment_of_load {tree : FileTree (List UInt8)} {p : Path} (hreads : Reads tree p d)
    (h : load home tree p = .ok s) (key : SettingKey) :
    match valueIn? d key with
    | some value =>
      ∃ t, standard.set home key value = .ok t ∧ s.assignment key = t.assignment key
    | none => s.assignment key = standard.assignment key := by
  have hvalue := ofDocument_eq_ok_iff.1 ((load_eq_ok_iff hreads).1 h) key
  rw [valueFrom] at hvalue
  cases hgiven : valueIn? d key with
  | some value =>
    rw [hgiven] at hvalue
    obtain ⟨t, hset, hsame⟩ := assignment_eq_of_read hvalue
    exact ⟨t, hset, hsame.symm⟩
  | none =>
    rw [hgiven] at hvalue
    exact (Except.ok.inj hvalue).symm

/-- Setting a text is all or nothing, touches no other setting, is allowed or refused whatever the settings
are, and can be swapped with setting another key. So a file is refused if it gives some key a text that is
refused. Otherwise each key that it gives a text is what that text alone makes of it, and each other key has
its standard value. Unless a heading or a key stands in it twice, where the first counts, neither the order
of the file nor what else it has makes a difference. -/
theorem set_load_independent (home : Option Path) :
    (∀ (s : Settings) (key : SettingKey) (text : String),
      (setInPlace home key text).run s
          = (match s.set home key text with
            | .ok t => .ok () t
            | .error e => .error e s)
        ∧ (∀ t, s.set home key text = .ok t → ∀ other ≠ key,
          t.assignment other = s.assignment other ∧ t.get other = s.get other)
        ∧ (∀ (t : Settings) (e : InvalidValue),
          s.set home key text = .error e ↔ t.set home key text = .error e)
        ∧ ∀ other ≠ key, ∀ text' t,
          (s.set home key text >>= fun s' => s'.set home other text') = .ok t
            ↔ (s.set home other text' >>= fun s' => s'.set home key text) = .ok t)
      ∧ (∀ tree p d, Reads tree p d →
        ((∃ e, load home tree p = .error e)
          ↔ ∃ key value, valueIn? d key = some value
            ∧ ∃ e, standard.set home key value = .error e)
        ∧ ∀ s, load home tree p = .ok s → ∀ key,
          match valueIn? d key with
          | some value =>
            ∃ t, standard.set home key value = .ok t ∧ s.assignment key = t.assignment key
          | none => s.assignment key = standard.assignment key)
      ∧ ∀ tree tree' p p' d d', Reads tree p d → Reads tree' p' d' → d.Distinct → d'.Distinct →
        (∀ (key : SettingKey) (value : List Char),
          d.Gives key.sectionName.toList key.entryName.toList value
            ↔ d'.Gives key.sectionName.toList key.entryName.toList value) →
        load home tree p = load home tree' p' := by
  refine ⟨fun s key text => ⟨run_setInPlace home key text s, ?_, ?_, ?_⟩, ?_, ?_⟩
  · intro t h other hne
    have hsame := assignment_of_set h hne
    exact ⟨hsame, get_congr hsame⟩
  · intro t e
    rw [set_eq_error_iff, set_eq_error_iff]
  · intro other hne text' t
    exact set_set_comm hne
  · intro tree p d hreads
    exact ⟨exists_load_eq_error_iff hreads, fun s h key => assignment_of_load hreads h key⟩
  · intro tree tree' p p' d d' hreads hreads' hd hd' hsame
    rw [load_of_reads home hreads, load_of_reads home hreads', ofDocument_congr hd hd' hsame]

/-- Two files that say the same in another order, one of them among what is no setting. -/
theorem set_load_independent_reordered :
    ∃ (tree : FileTree (List UInt8)) (d d' : Ini.Document) (s t : Settings),
      Reads tree ⟨"a"⟩ d ∧ Reads tree ⟨"b"⟩ d' ∧ d.Distinct ∧ d'.Distinct ∧ d.sections ≠ d'.sections
        ∧ load none tree ⟨"a"⟩ = .ok s ∧ load none tree ⟨"b"⟩ = .ok s
        ∧ standard.set none .logLevel "2" = .ok t ∧ s.assignment .logLevel = t.assignment .logLevel
        ∧ s.assignment .tileDirectory = standard.assignment .tileDirectory
        ∧ t.get .cacheSize = standard.get .cacheSize := by
  let first := "[cache]\nmax_size = 1KB\n[logging]\nlevel = 2\ndirectory = logs\n"
  let second := "[colors]\nlevel = 7\n[logging]\ndirectory = logs\nlevel = 2\n[cache]\nmax_size = 1KB"
  let tree : FileTree (List UInt8) :=
    ⟨[], [([['a']], .file (Text.encode first)), ([['b']], .file (Text.encode second))]⟩
  let size : Ini.Entry := ⟨"max_size".toList, "1KB".toList⟩
  let level : Ini.Entry := ⟨"level".toList, "2".toList⟩
  let directory : Ini.Entry := ⟨"directory".toList, "logs".toList⟩
  let d : Ini.Document := ⟨[], [⟨"cache".toList, [size]⟩, ⟨"logging".toList, [level, directory]⟩]⟩
  let d' : Ini.Document :=
    ⟨[], [⟨"colors".toList, [⟨"level".toList, "7".toList⟩]⟩,
      ⟨"logging".toList, [directory, level]⟩, ⟨"cache".toList, [size]⟩]⟩
  have hreads : Reads tree ⟨"a"⟩ d := by
    refine ⟨Text.encode first, first, rfl, Text.decode?_encode _, ?_⟩
    decide +kernel
  have hreads' : Reads tree ⟨"b"⟩ d' := by
    refine ⟨Text.encode second, second, rfl, Text.decode?_encode _, ?_⟩
    decide +kernel
  have hd : d.Distinct := ⟨by decide +kernel, by decide +kernel⟩
  have hd' : d'.Distinct := ⟨by decide +kernel, by decide +kernel⟩
  have hsame : ∀ (key : SettingKey) (value : List Char),
      d.Gives key.sectionName.toList key.entryName.toList value
        ↔ d'.Gives key.sectionName.toList key.entryName.toList value := by
    intro key value
    have hlookup : d.get? key.sectionName.toList key.entryName.toList
        = d'.get? key.sectionName.toList key.entryName.toList := by
      cases key <;> decide +kernel
    rw [← hd.get?_eq_some_iff, ← hd'.get?_eq_some_iff, hlookup]
  obtain ⟨hset, hload, horder⟩ := set_load_independent none
  obtain ⟨t, ht⟩ : ∃ t, standard.set none .logLevel "2" = .ok t := ⟨_, rfl⟩
  obtain ⟨s, hs⟩ : ∃ s, load none tree ⟨"a"⟩ = .ok s := by
    have hok : (load none tree ⟨"a"⟩).isOk = true := by decide +kernel
    cases hs : load none tree ⟨"a"⟩ with
    | ok s => exact ⟨s, rfl⟩
    | error e =>
      rw [hs] at hok
      cases hok
  have hloaded := horder tree tree _ _ d d' hreads hreads' hd hd' hsame
  obtain ⟨t', ht', hlevel⟩ : ∃ t', standard.set none .logLevel "2" = .ok t'
      ∧ s.assignment .logLevel = t'.assignment .logLevel :=
    (hload tree _ d hreads).2 s hs .logLevel
  obtain rfl : t = t' := Except.ok.inj (ht.symm.trans ht')
  exact ⟨tree, d, d', s, t, hreads, hreads', hd, hd', by decide +kernel, hs, hloaded ▸ hs, ht, hlevel,
    (hload tree _ d hreads).2 s hs .tileDirectory,
    ((hset standard .logLevel "2").2.1 t ht .cacheSize (by decide)).2⟩

end Settings

end Orthomosaic
