import Orthomosaic.CommandLine.Arguments

/-!
# Requests

What a user can ask of the program: the bucket, the tile or the mosaic of some ground, and the
settings. Two options are common to all commands and may stand in front of any command or behind it;
what is given further behind takes the place of what is given in front.
-/

namespace Orthomosaic.CommandLine

/-- What is asked about settings. -/
inductive SettingsRequest where
  | create (force : Bool)
  | overview
  | get (key : String)
  | change (key value : String)
  | location

/-- What is asked about some ground. -/
inductive GroundRequest where
  | tile (lon lat : Float) (output : Option Path)
  | area (minLon minLat maxLon maxLat : Float) (output : Option Path) (asDocument : Bool)

/-- What is asked. -/
inductive Request where
  | bucket (lon lat : Float)
  | ground (request : GroundRequest)
  | settings (request : SettingsRequest)

/-- What is given with any request: scenery roots to search before those that are set, and a settings
file to use in place of the usual one. -/
structure Choices where
  scenery : List Path
  settingsFile : Option Path

/-- The option that names a scenery root. -/
def sceneryOption : OptionForm := ⟨"scenery", none, .path, true⟩

/-- The option that names the settings file. -/
def settingsOption : OptionForm := ⟨"config", none, .path, false⟩

/-- The options that every command takes. -/
def commonOptions : List OptionForm :=
  [sceneryOption, settingsOption, ⟨"help", some 'h', .help, false⟩]

/-- A command with some options of its own. -/
def commandForm (options : List OptionForm) (operands : Nat)
    (commands : List (String × List String)) : CommandForm :=
  ⟨options ++ commonOptions, operands, commands⟩

/-- An option that gives a number. -/
def numberOption (name : String) : OptionForm := ⟨name, none, .number, false⟩

/-- The option that names the file for an image. -/
def outputOption : OptionForm := ⟨"output", some 'o', .path, false⟩

/-- An option that is there or not. -/
def flagOption (name : String) : OptionForm := ⟨name, none, .flag, false⟩

/-- The names of the commands for settings. -/
def settingsCommands : List String := ["init", "show", "get", "set", "path"]

/-- The program. -/
def programForm : CommandForm :=
  commandForm [⟨"version", some 'V', .version, false⟩] 0
    [("bucket", []), ("tile", []), ("area", []), ("config", settingsCommands)]

/-- The command that shows a bucket. -/
def bucketForm : CommandForm :=
  commandForm [numberOption "lon", numberOption "lat"] 0 []

/-- The command that looks up a tile. -/
def tileForm : CommandForm :=
  commandForm [numberOption "lon", numberOption "lat", outputOption] 0 []

/-- The command that looks up a rectangle. -/
def areaForm : CommandForm :=
  commandForm
    [ numberOption "min-lon", numberOption "min-lat", numberOption "max-lon",
      numberOption "max-lat", outputOption, flagOption "json" ]
    0 []

/-- The command for settings. -/
def settingsForm : CommandForm :=
  commandForm [] 0 (settingsCommands.map (·, []))

/-- The choices given in front of a command and behind it. -/
def Choices.override (front : Choices) (behind : Given) : Choices :=
  { scenery :=
      match behind.paths sceneryOption.name with
      | [] => front.scenery
      | paths => paths
    settingsFile :=
      match behind.paths settingsOption.name with
      | [] => front.settingsFile
      | p :: _ => some p }

/-- A command that must follow. -/
def nextCommand (g : Given) : Except Stop (String × List String) :=
  match g.next with
  | some command => .ok command
  | none => .error (.refused (.missing "a command"))

/-- The request about settings that a command and its arguments make. -/
def readSettingsRequest (choices : Choices) (name : String) (arguments : List String) :
    Except Stop (Choices × SettingsRequest) :=
  match name with
  | "init" => do
    let g ← scan (commandForm [flagOption "force"] 0 []) .nothing arguments
    .ok (choices.override g, .create (g.has "force"))
  | "show" => do
    let g ← scan (commandForm [] 0 []) .nothing arguments
    .ok (choices.override g, .overview)
  | "get" => do
    let g ← scan (commandForm [] 1 []) .nothing arguments
    .ok (choices.override g, .get (← g.operand 0 "a key"))
  | "set" => do
    let g ← scan (commandForm [] 2 []) .nothing arguments
    .ok (choices.override g, .change (← g.operand 0 "a key") (← g.operand 1 "a value"))
  | _ => do
    let g ← scan (commandForm [] 0 []) .nothing arguments
    .ok (choices.override g, .location)

/-- The request that a command and its arguments make. -/
def readCommand (choices : Choices) (name : String) (arguments : List String) :
    Except Stop (Choices × Request) :=
  match name with
  | "bucket" => do
    let g ← scan bucketForm .nothing arguments
    .ok (choices.override g, .bucket (← g.number "lon") (← g.number "lat"))
  | "tile" => do
    let g ← scan tileForm .nothing arguments
    .ok (choices.override g,
      .ground (.tile (← g.number "lon") (← g.number "lat") (g.paths outputOption.name).head?))
  | "area" => do
    let g ← scan areaForm .nothing arguments
    .ok (choices.override g,
      .ground (.area (← g.number "min-lon") (← g.number "min-lat") (← g.number "max-lon")
        (← g.number "max-lat") (g.paths outputOption.name).head? (g.has "json")))
  | _ => do
    let g ← scan settingsForm .nothing arguments
    let (name, arguments) ← nextCommand g
    let (choices, request) ← readSettingsRequest (choices.override g) name arguments
    .ok (choices, .settings request)

/-- The request that the arguments of the program make. -/
def readRequest (arguments : List String) : Except Stop (Choices × Request) := do
  let g ← scan programForm .nothing arguments
  let (name, arguments) ← nextCommand g
  readCommand (Choices.override ⟨[], none⟩ g) name arguments

end Orthomosaic.CommandLine
