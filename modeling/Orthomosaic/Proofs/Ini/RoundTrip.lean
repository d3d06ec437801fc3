import Mathlib.Data.List.Basic
import Orthomosaic.Ini.Reader
import Orthomosaic.Ini.Writer
import Orthomosaic.Proofs.Text.Trimmed

/-!
# Documents that read back

A document whose keys, headings and values are plain reads back from its text (`parse_render`). The
writer escapes a character at a time, so a text is read up to the delimiter that the writer put behind
it as long as no character of the text itself is a delimiter (`readText_escapeText`). Every line then
gives one item, and reading goes on where the next one begins (`Follows`).

Two characters are lost: the writer has letters for a line tabulation and a form feed that the reader
does not know.
-/

namespace Orthomosaic.Ini

/-! ## Characters -/

/-- The ways in which a character is written: behind a backslash, as a code, or as it is. -/
inductive WrittenAs (c : Char) : List Char → Prop where
  | letter (x : Char) (hx : x ≠ '\n') (hcode : x ≠ 'x') (h : unescape x = c) : WrittenAs c ['\\', x]
  | code (h₁ h₂ h₃ h₄ : Char) (h : charOfCode? [h₁, h₂, h₃, h₄] = some c) :
    WrittenAs c ['\\', 'x', h₁, h₂, h₃, h₄]
  | plain (hescape : c ≠ '\\') (hcontrol : isControl c = false) : WrittenAs c [c]

/-- The codes that are written denote the characters that they are written for. -/
theorem charOfCode?_hexDigits {n : Nat} (h : n < 128) :
    charOfCode? (Text.hexDigits 4 n) = some (Char.ofNat n) := by
  revert n
  decide

theorem lt_of_isControl {c : Char} (h : isControl c = true) : c.toNat < 128 := by
  unfold isControl at h
  simp only [Bool.or_eq_true, decide_eq_true_iff, beq_iff_eq] at h
  omega

/-- Every character but two is written so that it reads back: a line tabulation and a form feed are
written with letters that stand for themselves. -/
theorem writtenAs_escape {c : Char} (hv : c ≠ '\x0b') (hf : c ≠ '\x0c') : WrittenAs c (escape c) := by
  unfold escape
  split
  · subst c
    exact .letter '\\' (by decide) (by decide) rfl
  split
  · subst c
    exact .letter '0' (by decide) (by decide) rfl
  split
  · subst c
    exact .letter 'a' (by decide) (by decide) rfl
  split
  · subst c
    exact .letter 'b' (by decide) (by decide) rfl
  split
  · subst c
    exact .letter 't' (by decide) (by decide) rfl
  split
  · subst c
    exact .letter 'n' (by decide) (by decide) rfl
  split
  · subst c
    exact .letter 'r' (by decide) (by decide) rfl
  split
  · next h =>
    have hcode := charOfCode?_hexDigits (lt_of_isControl h)
    rw [Char.ofNat_toNat] at hcode
    exact .code _ _ _ _ hcode
  · next hescape _ _ _ _ _ _ hcontrol => exact .plain hescape (Bool.eq_false_iff.2 hcontrol)

/-- A character that reads back where a text ends at a delimiter: one that is written so that it does,
and that is no end of the text unless it is written as an escape. -/
structure Readable (d : Delimiter) (c : Char) : Prop where
  ne_tabulation : c ≠ '\x0b'
  ne_formFeed : c ≠ '\x0c'
  isControl_of_closes : d.closes c = true → isControl c = true

instance (d : Delimiter) (c : Char) : Decidable (Readable d c) :=
  decidable_of_iff (c ≠ '\x0b' ∧ c ≠ '\x0c' ∧ (d.closes c = true → isControl c = true))
    ⟨fun ⟨h, h', h''⟩ => ⟨h, h', h''⟩, fun ⟨h, h', h''⟩ => ⟨h, h', h''⟩⟩

/-! ## Texts -/

variable {d : Delimiter} {c : Char} {cs rest : List Char}

theorem readText_letter {x : Char} (hx : x ≠ '\n') (hcode : x ≠ 'x') :
    readText d ('\\' :: x :: rest) = (readText d rest).change (unescape x :: ·) := by
  rw [readText]
  all_goals simp [hx, hcode]

theorem readText_code {h₁ h₂ h₃ h₄ : Char} (h : charOfCode? [h₁, h₂, h₃, h₄] = some c) :
    readText d ('\\' :: 'x' :: h₁ :: h₂ :: h₃ :: h₄ :: rest)
      = (readText d rest).change (c :: ·) := by
  rw [readText, h]

theorem readText_plain (hescape : c ≠ '\\') :
    readText d (c :: rest)
      = if d.closes c then .ok ([], c :: rest) else (readText d rest).change (c :: ·) := by
  rw [readText]
  all_goals simp [hescape]

/-- A character reads back from what is written for it. -/
theorem readText_escape (h : Readable d c) :
    readText d (escape c ++ rest) = (readText d rest).change (c :: ·) := by
  have hwritten := writtenAs_escape h.ne_tabulation h.ne_formFeed
  generalize escape c = written at hwritten ⊢
  cases hwritten with
  | letter x hx hcode hc =>
    rw [← hc]
    exact readText_letter hx hcode
  | code h₁ h₂ h₃ h₄ hc => exact readText_code hc
  | plain hescape hcontrol =>
    have hopen : ¬ d.closes c = true := fun hcloses => by
      rw [h.isControl_of_closes hcloses] at hcontrol
      cases hcontrol
    exact (readText_plain hescape).trans (if_neg hopen)

/-- A text reads back from what is written for it, up to the delimiter behind it. -/
theorem readText_escapeText {x : Char} (hcloses : d.closes x = true)
    (h : ∀ c ∈ cs, Readable d c) (rest : List Char) :
    readText d (escapeText cs ++ x :: rest) = .ok (cs, x :: rest) := by
  induction cs with
  | nil =>
    have hescape : x ≠ '\\' := by
      rintro rfl
      cases d <;> cases hcloses
    exact (readText_plain hescape).trans (if_pos hcloses)
  | cons c cs ih =>
    obtain ⟨hc, hcs⟩ := List.forall_mem_cons.1 h
    rw [escapeText, List.flatMap_cons, List.append_assoc, readText_escape hc]
    unfold escapeText at ih
    rw [ih hcs]
    rfl

/-- What is written for a text begins with its first character or with a backslash. -/
theorem exists_escapeText_cons (h : Readable d c) (cs : List Char) :
    ∃ x written, escapeText (c :: cs) = x :: written ∧ (x = c ∨ x = '\\') := by
  have hwritten := writtenAs_escape h.ne_tabulation h.ne_formFeed
  rw [escapeText, List.flatMap_cons]
  generalize escape c = written at hwritten ⊢
  cases hwritten with
  | letter => exact ⟨_, _, rfl, .inr rfl⟩
  | code => exact ⟨_, _, rfl, .inr rfl⟩
  | plain => exact ⟨_, _, rfl, .inl rfl⟩

/-! ## Entries and headings -/

/-- An entry that reads back from its line. -/
structure Entry.Plain (e : Entry) : Prop where
  key_ne_nil : e.key ≠ []
  trim_key : Text.trim e.key = e.key
  readable_key : ∀ c ∈ e.key, Readable .separator c
  head_key : ∀ c, e.key.head? = some c → c ≠ ';' ∧ c ≠ '#' ∧ c ≠ '['
  trim_value : Text.trim e.value = e.value
  readable_value : ∀ c ∈ e.value, Readable .lineEnd c
  head_value : ∀ c, e.value.head? = some c → quotation? c = none

/-- A section that reads back from its lines. -/
structure Section.Plain (s : Section) : Prop where
  trim_name : Text.trim s.name = s.name
  readable_name : ∀ c ∈ s.name, Readable .bracket c
  entries : ∀ e ∈ s.entries, e.Plain

/-- What is no blank neither ends nor indents a line. -/
theorem isLineBreak_isIndent_of_not_isBlank (h : Text.isBlank c = false) :
    isLineBreak c = false ∧ isIndent c = false := by
  constructor
  · rw [← Bool.not_eq_true]
    intro hbreak
    simp only [isLineBreak, Bool.or_eq_true, beq_iff_eq] at hbreak
    rcases hbreak with rfl | rfl <;> revert h <;> decide
  · rw [← Bool.not_eq_true]
    intro hindent
    simp only [isIndent, Bool.or_eq_true, beq_iff_eq] at hindent
    rcases hindent with rfl | rfl <;> revert h <;> decide

/-- The value of an entry is what its line says behind the separator. -/
theorem readValue_escapeText {value : List Char} (htrim : Text.trim value = value)
    (hreadable : ∀ c ∈ value, Readable .lineEnd c)
    (hquote : ∀ c, value.head? = some c → quotation? c = none) (rest : List Char) :
    readValue false (skipLineBlanks (escapeText value ++ '\n' :: rest))
      = .ok (value, '\n' :: rest) := by
  have htext := readText_escapeText (show Delimiter.lineEnd.closes '\n' = true from rfl) hreadable
    rest
  -- the line begins neither with a blank nor with a quote
  obtain ⟨x, written, hline, hskip, hopen⟩ : ∃ x written,
      escapeText value ++ '\n' :: rest = x :: written
        ∧ ¬ (Text.isBlank x && x != '\n' && x != '\r') = true ∧ quotation? x = none := by
    cases value with
    | nil => exact ⟨'\n', rest, rfl, by decide, rfl⟩
    | cons c cs =>
      obtain ⟨x, written, hwritten, hx⟩ :=
        exists_escapeText_cons (hreadable c List.mem_cons_self) cs
      refine ⟨x, written ++ '\n' :: rest, by rw [hwritten]; rfl, ?_⟩
      rcases hx with rfl | rfl
      · have hblank := (Text.trim_eq_self_iff.1 htrim).1 x rfl
        exact ⟨by simp [hblank], hquote x rfl⟩
      · exact ⟨by decide, rfl⟩
  rw [hline] at htext ⊢
  have hstay : skipLineBlanks (x :: written) = x :: written := List.dropWhile_cons_of_neg hskip
  rw [hstay, readValue, hopen]
  dsimp only
  rw [htext]
  exact congrArg (fun v => Except.ok (v, '\n' :: rest)) htrim

theorem passBlanks_lineEnd (item : Option Item) (hrest : rest.head?.any isIndent = false) :
    passBlanks item false ('\n' :: rest) = passBlanks item true rest := by
  rw [passBlanks, if_pos (show isLineBreak '\n' = true from rfl), hrest]
  rfl

/-- The line of an entry begins like no comment, heading or indentation. -/
theorem Entry.Plain.exists_key_cons {e : Entry} (he : e.Plain) :
    ∃ x written, escapeText e.key = x :: written ∧ x ≠ ';' ∧ x ≠ '#' ∧ x ≠ '['
      ∧ Text.isBlank x = false := by
  obtain ⟨c, key, hkey⟩ := List.exists_cons_of_ne_nil he.key_ne_nil
  have hfirst : e.key.head? = some c := by rw [hkey]; rfl
  obtain ⟨x, written, hwritten, hx⟩ :=
    exists_escapeText_cons (he.readable_key c (by simp [hkey])) key
  refine ⟨x, written, by rw [hkey, hwritten], ?_⟩
  rcases hx with rfl | rfl
  · obtain ⟨hsemicolon, hhash, hbracket⟩ := he.head_key x hfirst
    exact ⟨hsemicolon, hhash, hbracket, (Text.trim_eq_self_iff.1 he.trim_key).1 x hfirst⟩
  · decide

/-- The line of an entry is read as that entry. -/
theorem readItem_line {e : Entry} (he : e.Plain) (hrest : rest.head?.any isIndent = false) :
    readItem true (e.line ++ rest) = .ok (passBlanks (some (.entry e)) true rest) := by
  have hkey := readText_escapeText (show Delimiter.separator.closes '=' = true from rfl)
    he.readable_key (escapeText e.value ++ '\n' :: rest)
  have hvalue := readValue_escapeText he.trim_value he.readable_value he.head_value rest
  have hline : e.line ++ rest = escapeText e.key ++ '=' :: (escapeText e.value ++ '\n' :: rest) := by
    simp [Entry.line]
  obtain ⟨x, written, hwritten, hsemicolon, hhash, hbracket, hblank⟩ := he.exists_key_cons
  obtain ⟨hbreak, hindent⟩ := isLineBreak_isIndent_of_not_isBlank hblank
  rw [hwritten, List.cons_append] at hkey
  rw [hline, hwritten, List.cons_append]
  unfold readItem
  dsimp only
  rw [if_neg (by simp [hsemicolon, hhash]), if_neg hbracket, hbreak, hindent,
    if_neg Bool.false_ne_true, if_neg Bool.false_ne_true, hkey]
  dsimp only
  rw [readEntry, he.trim_key, if_neg he.key_ne_nil, List.drop_one, List.tail_cons, hvalue]
  exact congrArg Except.ok (passBlanks_lineEnd _ hrest)

/-- The line of a heading is read as that heading. -/
theorem readItem_heading {name : List Char} (htrim : Text.trim name = name)
    (hreadable : ∀ c ∈ name, Readable .bracket c) (hrest : rest.head?.any isIndent = false) :
    readItem true ('[' :: (escapeText name ++ ']' :: '\n' :: rest))
      = .ok (passBlanks (some (.heading name)) true rest) := by
  have hname := readText_escapeText (show Delimiter.bracket.closes ']' = true from rfl) hreadable
    ('\n' :: rest)
  unfold readItem
  dsimp only
  rw [if_neg (by decide), if_pos rfl, readHeading, hname]
  dsimp only
  rw [htrim]
  exact congrArg Except.ok (passBlanks_lineEnd _ hrest)

/-! ## Items -/

/-- The items of a section. -/
def Section.items (s : Section) : List Item :=
  .heading s.name :: s.entries.map Item.entry

variable {next : List Char} {items : List Item} {entries : List Entry}

/-- Behind a line, reading goes on at a place further down: over an empty line, if there is one. -/
structure Follows (rest next : List Char) : Prop where
  head_not_indent : rest.head?.any isIndent = false
  passBlanks_eq : ∀ item, passBlanks item true rest = ⟨item, true, next⟩

/-- Reading goes on where no blank stands. -/
theorem follows_self (h : ∀ c, rest.head? = some c → Text.isBlank c = false) : Follows rest rest := by
  cases rest with
  | nil => exact ⟨rfl, fun _ => rfl⟩
  | cons c rest =>
    have hblank := h c rfl
    obtain ⟨hbreak, hindent⟩ := isLineBreak_isIndent_of_not_isBlank hblank
    refine ⟨by simp [hindent], fun item => ?_⟩
    rw [passBlanks, hbreak, hblank]
    rfl

theorem Follows.emptyLine (h : Follows rest next) : Follows ('\n' :: rest) next := by
  refine ⟨rfl, fun item => ?_⟩
  rw [passBlanks, if_pos (show isLineBreak '\n' = true from rfl), h.head_not_indent]
  exact h.passBlanks_eq item

/-- Items are read one after the other. -/
theorem readItems_of_readItem {item : Item} (hcs : cs ≠ [])
    (hitem : readItem true cs = .ok (passBlanks (some item) true rest)) (hrest : Follows rest next)
    (hitems : readItems true next = .ok items) : readItems true cs = .ok (item :: items) := by
  rw [hrest.passBlanks_eq] at hitem
  rw [readItems, dif_neg hcs]
  split
  · next e he =>
    rw [hitem] at he
    cases he
  · next step hstep =>
    rw [hitem] at hstep
    cases hstep
    dsimp only
    rw [hitems]
    rfl

/-- The lines of some entries are read as these entries. -/
theorem exists_readItems_entries (h : ∀ e ∈ entries, e.Plain) (hrest : Follows rest next)
    (hitems : readItems true next = .ok items) :
    ∃ start, Follows (entries.flatMap Entry.line ++ rest) start
      ∧ readItems true start = .ok (entries.map Item.entry ++ items) := by
  induction entries with
  | nil => exact ⟨next, hrest, hitems⟩
  | cons e entries ih =>
    obtain ⟨he, hentries⟩ := List.forall_mem_cons.1 h
    obtain ⟨start, hstart, hread⟩ := ih hentries
    have hne : e.line ++ (entries.flatMap Entry.line ++ rest) ≠ [] := by simp [Entry.line]
    obtain ⟨x, written, hwritten, -, -, -, hblank⟩ := he.exists_key_cons
    refine ⟨e.line ++ (entries.flatMap Entry.line ++ rest), ?_, ?_⟩
    · rw [List.flatMap_cons, List.append_assoc]
      refine follows_self fun c hc => ?_
      rw [Entry.line, hwritten] at hc
      obtain rfl := Option.some.inj hc
      exact hblank
    · rw [List.map_cons, List.cons_append]
      exact readItems_of_readItem hne (readItem_line he hstart.head_not_indent) hstart hread

/-- The lines of a section are read as its items. -/
theorem readItems_lines {s : Section} (hs : s.Plain) (hrest : Follows rest next)
    (hitems : readItems true next = .ok items) :
    readItems true (s.lines ++ rest) = .ok (s.items ++ items) := by
  obtain ⟨start, hstart, hread⟩ := exists_readItems_entries hs.entries hrest hitems
  have hlines : s.lines ++ rest
      = '[' :: (escapeText s.name ++ ']' :: '\n' :: (s.entries.flatMap Entry.line ++ rest)) := by
    simp [Section.lines]
  rw [hlines]
  exact readItems_of_readItem (List.cons_ne_nil _ _)
    (readItem_heading hs.trim_name hs.readable_name hstart.head_not_indent) hstart hread

/-- Sections begin with a bracket. -/
theorem eq_bracket_of_head?_intercalate (sections : List Section)
    (h : (['\n'].intercalate (sections.map Section.lines)).head? = some c) : c = '[' := by
  cases sections with
  | nil => cases h
  | cons s sections =>
    cases sections with
    | nil =>
      rw [List.map_cons, List.map_nil, List.intercalate_singleton] at h
      exact (Option.some.inj h).symm
    | cons t sections =>
      rw [List.map_cons, List.map_cons, List.intercalate_cons_cons] at h
      exact (Option.some.inj h).symm

/-- The lines of some sections, with empty lines between them, are read as their items. -/
theorem readItems_intercalate {sections : List Section} (h : ∀ s ∈ sections, s.Plain) :
    readItems true (['\n'].intercalate (sections.map Section.lines))
      = .ok (sections.flatMap Section.items) := by
  induction sections with
  | nil =>
    rw [readItems]
    rfl
  | cons s sections ih =>
    obtain ⟨hs, hsections⟩ := List.forall_mem_cons.1 h
    cases sections with
    | nil =>
      have hend : Follows [] [] := ⟨rfl, fun _ => rfl⟩
      have hread := readItems_lines hs hend (ih hsections)
      simpa using hread
    | cons t sections =>
      rw [List.map_cons, List.map_cons, List.intercalate_cons_cons, List.append_assoc,
        List.flatMap_cons]
      refine readItems_lines hs (Follows.emptyLine (follows_self fun c hc => ?_)) (ih hsections)
      obtain rfl := eq_bracket_of_head?_intercalate (t :: sections) hc
      rfl

/-! ## Documents -/

/-- The items of sections make up these sections. -/
theorem ofItems_flatMap (sections : List Section) :
    Document.ofItems (sections.flatMap Section.items) = ⟨[], sections⟩ := by
  have hentries : ∀ (entries : List Entry) (rest : List Item),
      Document.ofItems (entries.map Item.entry ++ rest)
        = ⟨entries ++ (Document.ofItems rest).preamble, (Document.ofItems rest).sections⟩ := by
    intro entries rest
    induction entries with
    | nil => rfl
    | cons e entries ih => rw [List.map_cons, List.cons_append, Document.ofItems, ih]; rfl
  induction sections with
  | nil => rfl
  | cons s sections ih =>
    rw [List.flatMap_cons, Section.items, List.cons_append, Document.ofItems, hentries, ih]
    simp

/-- A document of sections that read back is what its text denotes. -/
theorem parse_render {d : Document} (hpreamble : d.preamble = [])
    (hsections : ∀ s ∈ d.sections, s.Plain) : parse d.render = .ok d := by
  have hrender : d.render = ['\n'].intercalate (d.sections.map Section.lines) := by
    rw [Document.render, hpreamble]
    rfl
  have hmark : d.render.head? ≠ some '\ufeff' := by
    rw [hrender]
    intro hmark
    cases eq_bracket_of_head?_intercalate _ hmark
  unfold parse
  rw [if_neg hmark]
  dsimp only
  rw [hrender, readItems_intercalate hsections]
  dsimp only
  rw [ofItems_flatMap, ← hpreamble]

end Orthomosaic.Ini
