import Orthomosaic.Decimal.Reader
import Orthomosaic.Path

/-!
# Arguments

The arguments of a command are options and operands, up to the name of a further command. An option
is written `--name`, with its value behind an equals sign or as the next argument, and some have a
letter too. An argument that starts with a dash is taken for the value of an option only where a
number is wanted and it looks like a negative one. Behind `--` every argument is an operand.

The first thing that is wrong ends the reading, and so does a request for help or for the version.
-/

namespace Orthomosaic.CommandLine

/-- What an option asks for. -/
inductive OptionRole where
  | path
  | number
  | flag
  | version
  | help
deriving DecidableEq, Repr

/-- An option of a command, written as two dashes and its name or as one dash and its letter. -/
structure OptionForm where
  name : String
  letter : Option Char
  role : OptionRole
  repeatable : Bool

/-- A command as it can be written: its options, the number of its operands, and the further commands
that it takes, each with those that it takes in turn. -/
structure CommandForm where
  options : List OptionForm
  operands : Nat
  commands : List (String × List String)

/-- The value of an option. -/
inductive OptionValue where
  | path (p : Path)
  | number (x : Float)
  | present

/-- What a command was given; `next` is the further command and its arguments. -/
structure Given where
  options : List (String × OptionValue)
  operands : List String
  next : Option (String × List String)

/-- What is wrong with the arguments. -/
inductive ArgumentError where
  | unknown (argument : String)
  | missingValue (option : String)
  | unneededValue (option : String)
  | repeated (option : String)
  | notANumber (option value : String)
  | missing (what : String)
deriving DecidableEq, Repr

/-- The wording of the error. -/
def ArgumentError.message : ArgumentError → String
  | unknown argument => s!"unexpected argument '{argument}'"
  | missingValue option => s!"a value is required for '--{option}'"
  | unneededValue option => s!"no value is expected for '--{option}'"
  | repeated option => s!"'--{option}' cannot be used multiple times"
  | notANumber option value => s!"invalid value '{value}' for '--{option}'"
  | missing what => s!"{what} is required"

/-- Why the reading of arguments ends. -/
inductive Stop where
  | refused (error : ArgumentError)
  | version
  | help
deriving DecidableEq, Repr

/-- Whether the text behind a dash looks like a number: digits with at most one point and one mark of
an exponent, neither at the start, the point in front of the mark and the mark not at the end. -/
def looksNumeric (cs : List Char) : Bool :=
  let isMark := fun (c : Char) => c == 'e' || c == 'E'
  let significand := cs.takeWhile (!isMark ·)
  let exponent := cs.dropWhile (!isMark ·)
  let isPlain := significand.all (fun c => Decimal.isDigit c || c == '.')
    && significand.count '.' ≤ 1 && significand.head? != some '.'
  match exponent with
  | [] => isPlain
  | _ :: digits =>
    isPlain && !significand.isEmpty && !digits.isEmpty && digits.all Decimal.isDigit

/-- Whether an argument can be the value of an option that stands in front of it. -/
def isValueFor (role : OptionRole) (argument : String) : Bool :=
  match argument.toList with
  | '-' :: c :: rest => c != '-' && role == .number && looksNumeric (c :: rest)
  | _ => true

/-- The value that an option makes of a text. -/
def OptionForm.value (o : OptionForm) (text : String) : Except Stop OptionValue :=
  match o.role with
  | .path => if text.isEmpty then .error (.refused (.missingValue o.name)) else .ok (.path ⟨text⟩)
  | .number =>
    match Decimal.readFloat? text.toList with
    | some x => .ok (.number x)
    | none => .error (.refused (.notANumber o.name text))
  | _ => .error (.refused (.unneededValue o.name))

namespace Given

/-- Nothing. -/
def nothing : Given := ⟨[], [], none⟩

/-- What was given, and an option more. -/
def withOption (g : Given) (o : OptionForm) (value : OptionValue) : Except Stop Given :=
  if !o.repeatable && g.options.any (·.1 == o.name) then .error (.refused (.repeated o.name))
  else .ok { g with options := g.options ++ [(o.name, value)] }

/-- What was given, and an option with its value as a text more. -/
def withText (g : Given) (o : OptionForm) (text : String) : Except Stop Given :=
  o.value text >>= g.withOption o

/-- What was given, and operands more, if the command takes so many. -/
def withOperands (g : Given) (form : CommandForm) : List String → Except Stop Given
  | [] => .ok g
  | argument :: rest =>
    if g.operands.length < form.operands then
      withOperands { g with operands := g.operands ++ [argument] } form rest
    else .error (.refused (.unknown argument))

/-- The numbers given to an option. -/
def numbers (g : Given) (name : String) : List Float :=
  g.options.filterMap fun
    | (n, .number x) => if n == name then some x else none
    | _ => none

/-- The paths given to an option. -/
def paths (g : Given) (name : String) : List Path :=
  g.options.filterMap fun
    | (n, .path p) => if n == name then some p else none
    | _ => none

/-- Whether an option is given. -/
def has (g : Given) (name : String) : Bool :=
  g.options.any (·.1 == name)

/-- The number given to an option that must be given. -/
def number (g : Given) (name : String) : Except Stop Float :=
  match g.numbers name with
  | x :: _ => .ok x
  | [] => .error (.refused (.missing s!"--{name}"))

/-- An operand that must be given. -/
def operand (g : Given) (i : Nat) (what : String) : Except Stop String :=
  match g.operands[i]? with
  | some argument => .ok argument
  | none => .error (.refused (.missing what))

end Given

/-- What an argument that starts with a dash says: an option and, if one is attached to it, its
value. Behind the letter of an option that only asks for help or the version nothing is looked
at. -/
def readOption (form : CommandForm) (argument : String) :
    Except Stop (OptionForm × Option String) :=
  let unknown : Except Stop (OptionForm × Option String) := .error (.refused (.unknown argument))
  match argument.toList with
  | '-' :: '-' :: word =>
    let name := String.ofList (word.takeWhile (· != '='))
    let attached :=
      match word.dropWhile (· != '=') with
      | _ :: value => some (String.ofList value)
      | [] => none
    match form.options.find? (·.name == name) with
    | some o => .ok (o, attached)
    | none => unknown
  | '-' :: letter :: rest =>
    match form.options.find? (·.letter == some letter) with
    | some o =>
      let value := if rest.head? = some '=' then rest.drop 1 else rest
      let isAlone := rest.isEmpty || o.role == .help || o.role == .version
      .ok (o, if isAlone then none else some (String.ofList value))
    | none => unknown
  | _ => unknown

/-- Whether an argument starts with a dash and goes on behind it. -/
def isOption (argument : String) : Bool :=
  match argument.toList with
  | '-' :: _ :: _ => true
  | _ => false

/-- How reading ends at a request for help, given the words that lead to the command it is about. -/
def helpOn (commands : List (String × List String)) : List String → Stop
  | [] => .help
  | word :: rest =>
    match commands.find? (·.1 == word) with
    | some (_, further) => helpOn (further.map (·, [])) rest
    | none => .refused (.unknown word)

/-- What a command is given by its arguments. -/
def scan (form : CommandForm) (g : Given) : List String → Except Stop Given
  | [] => .ok g
  | argument :: rest =>
    if form.commands.any (·.1 == argument) then .ok { g with next := some (argument, rest) }
    else if argument = "help" ∧ form.commands ≠ [] then .error (helpOn form.commands rest)
    else if argument = "--" then g.withOperands form rest
    else if isOption argument then
      match readOption form argument with
      | .error e => .error e
      | .ok (o, attached) =>
        match o.role, attached with
        | .help, none => .error .help
        | .version, none => .error .version
        | .flag, none => do scan form (← g.withOption o .present) rest
        | _, some text => do scan form (← g.withText o text) rest
        | role, none =>
          match rest with
          | [] => .error (.refused (.missingValue o.name))
          | text :: rest =>
            if isValueFor role text then do scan form (← g.withText o text) rest
            else .error (.refused (.missingValue o.name))
    else do scan form (← g.withOperands form [argument]) rest

end Orthomosaic.CommandLine
