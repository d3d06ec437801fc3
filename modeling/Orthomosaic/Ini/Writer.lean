import Orthomosaic.Ini.Document
import Orthomosaic.Ini.Escape

/-!
# Writing documents

An entry takes one line, whatever its value holds, and so does a heading. An empty line stands
between two sections.
-/

namespace Orthomosaic.Ini

/-- A text as it is written. -/
def escapeText (cs : List Char) : List Char :=
  cs.flatMap escape

/-- The line of an entry. -/
def Entry.line (e : Entry) : List Char :=
  escapeText e.key ++ '=' :: (escapeText e.value ++ ['\n'])

/-- The lines of a section. -/
def Section.lines (s : Section) : List Char :=
  '[' :: (escapeText s.name ++ ']' :: '\n' :: s.entries.flatMap Entry.line)

/-- The text of a document. -/
def Document.render (d : Document) : List Char :=
  d.preamble.flatMap Entry.line ++ ['\n'].intercalate (d.sections.map Section.lines)

end Orthomosaic.Ini
