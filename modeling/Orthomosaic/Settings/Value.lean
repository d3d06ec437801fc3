import Orthomosaic.Settings.Basic

/-!
# Values given as text

A value is read without a look at the other settings: `Assignment.read` makes of a key and a text
the change that they ask for, or says why the text is no value of the setting. `Settings.set` reads
a change and carries it out, so a text that is refused changes nothing. `Settings.setInPlace` changes
a record of settings field by field, and stops where a text is refused.
-/

namespace Orthomosaic

/-- Why a text is no value of a setting. -/
inductive ValueFault where
  | empty
  | extension
  | size
  | choice
  | level
deriving DecidableEq, Repr

/-- The wording of the fault. -/
def ValueFault.message : ValueFault → String
  | empty => "must not be empty"
  | extension => "expected a file extension such as png"
  | size => "expected a size such as 512MB or 1GB"
  | choice => "expected true or false"
  | level => "expected one of trace, debug, info, warn, error"

/-- A text that is no value of a setting, without the blanks around it. -/
structure InvalidValue where
  key : SettingKey
  value : String
  fault : ValueFault
deriving DecidableEq, Repr

/-- The wording of the error. -/
def InvalidValue.message (e : InvalidValue) : String :=
  s!"Invalid value '{e.value}' for [{e.key.sectionName}] {e.key.entryName}: {e.fault.message}"

/-- The path that a text denotes. A tilde in front stands for the home directory, if there is
one. -/
def Path.ofText (home : Option Path) (text : List Char) : Path :=
  match text, home with
  | '~' :: '/' :: rest, some home => home.join ⟨String.ofList rest⟩
  | _, _ => ⟨String.ofList text⟩

/-- A change of one setting. -/
inductive Assignment where
  | sceneryPaths (paths : List Path)
  | tileDirectory (name : String)
  | primaryExtension (extension : String)
  | secondaryExtension (extension : String)
  | cacheSize (bytes : Nat)
  | cacheMissing (memoize : Bool)
  | logLevel (level : String)
  | logDirectory (directory : Option Path)
deriving Repr

namespace Assignment

/-- The paths that a text lists; empty ones are left out. -/
def readPaths (home : Option Path) (value : List Char) : List Path :=
  let pieces := (Text.splitOn Settings.pathSeparator value).map Text.trim
  (pieces.filter (· ≠ [])).map (Path.ofText home)

/-- The file extension that a text denotes, without dots in front and in lower case. -/
def readExtension (value : List Char) : Except ValueFault String :=
  if value = [] then .error .empty
  else
    let bare := value.dropWhile (· == '.')
    if bare = [] ∨ '/' ∈ bare ∨ '\\' ∈ bare then .error .extension
    else .ok (String.ofList (bare.map Char.toLower))

/-- The choice that a word makes. -/
def readChoice? (value : List Char) : Option Bool :=
  let word := String.ofList (value.map Char.toLower)
  if ["true", "yes", "on", "1"].contains word then some true
  else if ["false", "no", "off", "0"].contains word then some false
  else none

/-- What was read, or the fault if nothing was. -/
def orFault {α : Type} (fault : ValueFault) : Option α → Except ValueFault α
  | some x => .ok x
  | none => .error fault

/-- The change that a key and a text without blanks at its ends ask for. -/
def readTrimmed (home : Option Path) (value : List Char) : SettingKey → Except ValueFault Assignment
  | .sceneryPaths => .ok (.sceneryPaths (readPaths home value))
  | .tileDirectory =>
    if value = [] then .error .empty else .ok (.tileDirectory (String.ofList value))
  | .primaryExtension => (readExtension value).map .primaryExtension
  | .secondaryExtension => (readExtension value).map .secondaryExtension
  | .cacheSize => (orFault .size (Size.parse? value)).map .cacheSize
  | .cacheMissing => (orFault .choice (readChoice? value)).map .cacheMissing
  | .logLevel => (orFault .level (LogLevel.parse? value)).map fun level => .logLevel level.name
  | .logDirectory =>
    .ok (.logDirectory (if value = [] then none else some (Path.ofText home value)))

/-- The change that a key and a text ask for. -/
def read (home : Option Path) (key : SettingKey) (text : String) :
    Except InvalidValue Assignment :=
  let value := Text.trim text.toList
  match readTrimmed home value key with
  | .ok a => .ok a
  | .error fault => .error ⟨key, String.ofList value, fault⟩

end Assignment

namespace Settings

/-- The settings with a change carried out. -/
def assign (s : Settings) : Assignment → Settings
  | .sceneryPaths paths => { s with sceneryPaths := paths }
  | .tileDirectory name =>
    { s with cache := { s.cache with layout := { s.cache.layout with directory := name } } }
  | .primaryExtension extension =>
    { s with
      cache := { s.cache with layout := { s.cache.layout with primaryExtension := extension } } }
  | .secondaryExtension extension =>
    { s with
      cache := { s.cache with layout := { s.cache.layout with secondaryExtension := extension } } }
  | .cacheSize bytes => { s with cache := { s.cache with maxBytes := bytes } }
  | .cacheMissing memoize => { s with cache := { s.cache with memoizeMissing := memoize } }
  | .logLevel level => { s with logLevel := level }
  | .logDirectory directory => { s with logDirectory := directory }

/-- The settings with a setting changed to what a text denotes. -/
def set (home : Option Path) (s : Settings) (key : SettingKey) (text : String) :
    Except InvalidValue Settings :=
  (Assignment.read home key text).map s.assign

/-- What was read, or the fault in the value of a key. -/
def orRefuse {α : Type} (key : SettingKey) (value : List Char) :
    Except ValueFault α → EStateM InvalidValue Settings α
  | .ok x => pure x
  | .error fault => throw ⟨key, String.ofList value, fault⟩

/-- A setting changed in place to what a text denotes. -/
def setInPlace (home : Option Path) (key : SettingKey) (text : String) :
    EStateM InvalidValue Settings Unit := do
  let value := Text.trim text.toList
  match key with
  | .sceneryPaths =>
    let paths := Assignment.readPaths home value
    modify fun s => { s with sceneryPaths := paths }
  | .tileDirectory =>
    if value = [] then orRefuse key value (.error .empty)
    modify fun s => { s with cache.layout.directory := String.ofList value }
  | .primaryExtension =>
    let extension ← orRefuse key value (Assignment.readExtension value)
    modify fun s => { s with cache.layout.primaryExtension := extension }
  | .secondaryExtension =>
    let extension ← orRefuse key value (Assignment.readExtension value)
    modify fun s => { s with cache.layout.secondaryExtension := extension }
  | .cacheSize =>
    let bytes ← orRefuse key value (Assignment.orFault .size (Size.parse? value))
    modify fun s => { s with cache.maxBytes := bytes }
  | .cacheMissing =>
    let memoize ← orRefuse key value (Assignment.orFault .choice (Assignment.readChoice? value))
    modify fun s => { s with cache.memoizeMissing := memoize }
  | .logLevel =>
    let level ← orRefuse key value (Assignment.orFault .level (LogLevel.parse? value))
    modify fun s => { s with logLevel := level.name }
  | .logDirectory =>
    if value = [] then modify fun s => { s with logDirectory := none }
    else modify fun s => { s with logDirectory := some (Path.ofText home value) }

end Settings

end Orthomosaic
