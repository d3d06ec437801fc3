import Orthomosaic.FileTree
import Orthomosaic.Ini.Reader
import Orthomosaic.Ini.Writer
import Orthomosaic.Settings.Value
import Orthomosaic.Text.Encoding

/-!
# The settings file

Settings are kept in a file of sections. A setting that the file does not name has its standard
value, and what the file names beside the settings is passed over; so is a file that is not there.
Only the first section of a name and the first entry of a key in it count.

`Settings.loadBy` and `Settings.saveBy` leave open how documents are read and written.
-/

namespace Orthomosaic

/-- Why settings are not loaded, changed or saved. -/
inductive SettingsError where
  | unreadable (path : Path)
  | malformed (path : Path) (error : Ini.SyntaxError)
  | invalid (error : InvalidValue)
  | unwritable (path : Path)
  | unknownKey (name : String)

/-- The wording of the error. -/
def SettingsError.message : SettingsError → String
  | unreadable path => s!"Failed to read config file {path.text}: it holds no text"
  | malformed path error => s!"Failed to read config file {path.text}: {error.message}"
  | invalid error => error.message
  | unwritable path => s!"Failed to write config file {path.text}: it could not be created"
  | unknownKey name => s!"Unknown configuration key '{name}'"

/-- The key of a name, or the error that there is none. -/
def SettingKey.named (name : String) : Except SettingsError SettingKey :=
  match SettingKey.parse? name with
  | some key => .ok key
  | none => .error (.unknownKey name)

namespace Settings

/-- The directory of the settings file: in the home directory, or here if there is none. -/
def defaultDirectory (home : Option Path) : Path :=
  match home with
  | some home => home.join ⟨".orthotile"⟩
  | none => ⟨".orthotile"⟩

/-- The settings file that is used unless another one is given. -/
def defaultFile (home : Option Path) : Path :=
  (defaultDirectory home).join ⟨"config.ini"⟩

/-- The value that a document gives to a key. -/
def valueIn? (d : Ini.Document) (key : SettingKey) : Option String :=
  (d.get? key.sectionName.toList key.entryName.toList).map String.ofList

/-- The settings that a document describes. Keys are looked up in their order, and the first value
that is refused is the error. -/
def ofDocument (home : Option Path) (d : Ini.Document) : Except InvalidValue Settings :=
  SettingKey.all.foldlM
    (fun s key =>
      match valueIn? d key with
      | some value => s.set home key value
      | none => .ok s)
    standard

/-- The settings in a file, by the way in which documents are read. -/
def loadBy (parse : List Char → Except Ini.SyntaxError Ini.Document) (home : Option Path)
    (tree : FileTree (List UInt8)) (p : Path) : Except SettingsError Settings :=
  match tree.find? p with
  | none => .ok standard
  | some .directory => .error (.unreadable p)
  | some (.file bytes) =>
    match Text.decode? bytes with
    | none => .error (.unreadable p)
    | some text =>
      match parse text.toList with
      | .error e => .error (.malformed p e)
      | .ok d => (ofDocument home d).mapError .invalid

/-- The settings in a file. -/
def load (home : Option Path) (tree : FileTree (List UInt8)) (p : Path) :
    Except SettingsError Settings :=
  loadBy Ini.parse home tree p

/-- The names of the sections, in the order in which they are written. -/
def sectionNames : List String := ["scenery", "orthophoto", "cache", "logging"]

/-- The entry of a setting. What is shown as nothing has none, except for the scenery roots. -/
def entry? (s : Settings) (key : SettingKey) : Option Ini.Entry :=
  let value := (s.get key).toList
  if value = [] ∧ key ≠ .sceneryPaths then none else some ⟨key.entryName.toList, value⟩

/-- The section of a name. -/
def section? (s : Settings) (name : String) : Option Ini.Section :=
  match (SettingKey.all.filter (·.sectionName == name)).filterMap s.entry? with
  | [] => none
  | entries => some ⟨name.toList, entries⟩

/-- The document that describes settings. -/
def toDocument (s : Settings) : Ini.Document :=
  ⟨[], sectionNames.filterMap s.section?⟩

/-- The files with settings saved to a path, whose directory is made if it is not there, by the way in
which documents are written. -/
def saveBy (render : Ini.Document → List Char) (s : Settings) (tree : FileTree (List UInt8))
    (p : Path) : Except SettingsError Unit × FileTree (List UInt8) :=
  let (written, tree) := tree.put p (Text.encode (String.ofList (render s.toDocument)))
  (if written then .ok () else .error (.unwritable p), tree)

/-- The files with settings saved to a path. -/
def save (s : Settings) (tree : FileTree (List UInt8)) (p : Path) :
    Except SettingsError Unit × FileTree (List UInt8) :=
  s.saveBy Ini.Document.render tree p

end Settings

end Orthomosaic
