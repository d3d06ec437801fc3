import Orthomosaic.Text.Quoted

/-!
# Why a document cannot be read

Every failure names the place in the text at which it was found. Reading stops there.
-/

namespace Orthomosaic.Ini

/-- What ends a stretch of text: an equals sign or a colon behind a key, the bracket behind a heading, a
quote, or a line break, for which the end of the text will do. -/
inductive Delimiter where
  | separator
  | bracket
  | doubleQuote
  | singleQuote
  | lineEnd
deriving DecidableEq, Repr

namespace Delimiter

/-- Whether a character is the end of a stretch. -/
def closes : Delimiter → Char → Bool
  | separator, c => c == '=' || c == ':'
  | bracket, c => c == ']'
  | doubleQuote, c => c == '\x22'
  | singleQuote, c => c == '\x27'
  | lineEnd, c => c == '\n' || c == '\r'

/-- Whether a stretch may go on to the end of the text. -/
def closedByEnd (d : Delimiter) : Bool :=
  d == lineEnd

/-- What messages say was expected. -/
def expectation : Delimiter → String
  | separator => "[Some('='), Some(':')]"
  | bracket => "[Some(']')]"
  | doubleQuote => "[Some('\"')]"
  | singleQuote => "[Some('\\'')]"
  | lineEnd => "[Some('\\n'), Some('\\r'), None]"

end Delimiter

/-- Why reading stops. A code is broken if a backslash stands in it with no line break behind. -/
inductive Fault where
  | inlineComment
  | missingKey
  | unexpectedEnd (expected : Delimiter)
  | unknownCharacter
  | brokenCode (found : Option Char)
deriving DecidableEq, Repr

/-- The wording of a fault. -/
def Fault.message : Fault → String
  | inlineComment => "doesn't support inline comment"
  | missingKey => "missing key"
  | unexpectedEnd expected => s!"expecting \"{expected.expectation}\" but found EOF."
  | unknownCharacter => "unknown character in \\xHH form"
  | brokenCode found =>
    let shown := match found with
      | some c => s!"Some({Text.quotedSingle c})"
      | none => "None"
    s!"expecting \"\\\\n\" but found \"{shown}\"."

/-- A fault and its place, both numbers counted from 1. -/
structure SyntaxError where
  line : Nat
  column : Nat
  fault : Fault
deriving DecidableEq, Repr

/-- The wording of the error. -/
def SyntaxError.message (e : SyntaxError) : String :=
  s!"{e.line}:{e.column} {e.fault.message}"

/-- The error of a fault in a text of which `left` is yet to be read. The place is told by the
characters up to the first one left: how many lines they fill, and how many of them stand on the
last line; a line break counts with the line behind it. -/
def SyntaxError.locate (text left : List Char) (fault : Fault) : SyntaxError :=
  let seen := text.take (text.length - left.length + 1)
  { line := seen.count '\n' + 1
    column := (seen.reverse.takeWhile (· != '\n')).length + 1
    fault := fault }

end Orthomosaic.Ini
