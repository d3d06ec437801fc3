/-!
# Documents of sections

A document holds entries, each a key and a value, under headings that may repeat. A lookup goes to
the first section of a name and to the first entry of a key there.
-/

namespace Orthomosaic.Ini

/-- A key and its value. -/
structure Entry where
  key : List Char
  value : List Char
deriving DecidableEq, Repr

/-- The entries under one heading. -/
structure Section where
  name : List Char
  entries : List Entry
deriving DecidableEq, Repr

/-- A document: the entries before the first heading, and the sections. -/
structure Document where
  preamble : List Entry
  sections : List Section
deriving DecidableEq, Repr

/-- What the lines of a document say. -/
inductive Item where
  | heading (name : List Char)
  | entry (entry : Entry)
deriving DecidableEq, Repr

namespace Document

/-- The document that items make up. -/
def ofItems : List Item → Document
  | [] => ⟨[], []⟩
  | .entry e :: rest =>
    let d := ofItems rest
    ⟨e :: d.preamble, d.sections⟩
  | .heading name :: rest =>
    let d := ofItems rest
    ⟨[], ⟨name, d.preamble⟩ :: d.sections⟩

/-- The value of a key under a heading. -/
def get? (d : Document) (name key : List Char) : Option (List Char) := do
  let s ← d.sections.find? (·.name == name)
  let e ← s.entries.find? (·.key == key)
  some e.value

end Document

end Orthomosaic.Ini
