import Orthomosaic.Decimal.Reader
import Orthomosaic.Text.Blank
import Orthomosaic.Word

/-!
# Log levels

How much is logged, named by a word in letters of either case or by a number from 1 to 5.
-/

namespace Orthomosaic

/-- The least severity that is logged. -/
inductive LogLevel where
  | trace
  | debug
  | info
  | warn
  | error
deriving DecidableEq, Repr

namespace LogLevel

/-- Every level. -/
def all : List LogLevel := [trace, debug, info, warn, error]

/-- The name of a level. -/
def name : LogLevel → String
  | trace => "trace"
  | debug => "debug"
  | info => "info"
  | warn => "warn"
  | error => "error"

/-- The level of a number. -/
def ofNumber? : Nat → Option LogLevel
  | 1 => some error
  | 2 => some warn
  | 3 => some info
  | 4 => some debug
  | 5 => some trace
  | _ => none

/-- The level that a text names. -/
def parse? (cs : List Char) : Option LogLevel :=
  match (Decimal.readNat? Word.unsigned64 cs).bind ofNumber? with
  | some level => some level
  | none => all.find? fun level => level.name.toList == cs.map Char.toLower

end LogLevel

/-- Why logging cannot be set up. -/
inductive LoggingError where
  | invalidLevel (level : String)
  | directory (path : String)

/-- The wording of the error. -/
def LoggingError.message : LoggingError → String
  | invalidLevel level => s!"Invalid log level '{level}'"
  | directory path => s!"Failed to create log directory {path}: it could not be created"

/-- The level of a logging set-up, with blanks around it ignored. -/
def loggingLevel (level : String) : Except LoggingError LogLevel :=
  match LogLevel.parse? (Text.trim level.toList) with
  | some level => .ok level
  | none => .error (.invalidLevel level)

end Orthomosaic
