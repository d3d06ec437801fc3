import Orthomosaic.Settings.LogLevel
import Orthomosaic.Settings.Size
import Orthomosaic.Tile.Cache

/-!
# Settings

What a user can set: where scenery is looked for, how tiles are stored and kept, and what is logged.
Each setting has a key, which is written as the name of a section and a name within it.
-/

namespace Orthomosaic

/-- The values of all settings. The scenery root searched first stands in front, and the log level is a
text that need not name one: it is looked at when logging is set up. -/
structure Settings where
  sceneryPaths : List Path
  cache : CacheSettings
  logLevel : String
  logDirectory : Option Path
deriving Repr

/-- The settings that hold unless others are given. -/
def Settings.standard : Settings :=
  { sceneryPaths := [], cache := .standard, logLevel := "info", logDirectory := none }

/-- The key of a setting. -/
inductive SettingKey where
  | sceneryPaths
  | tileDirectory
  | primaryExtension
  | secondaryExtension
  | cacheSize
  | cacheMissing
  | logLevel
  | logDirectory
deriving DecidableEq, Repr

namespace SettingKey

/-- Every key, in the order in which settings are shown and written. -/
def all : List SettingKey :=
  [ sceneryPaths, tileDirectory, primaryExtension, secondaryExtension, cacheSize, cacheMissing,
    logLevel, logDirectory ]

theorem mem_all (key : SettingKey) : key ∈ all := by
  cases key <;> decide

/-- The section of a key. -/
def sectionName : SettingKey → String
  | sceneryPaths => "scenery"
  | tileDirectory | primaryExtension | secondaryExtension => "orthophoto"
  | cacheSize | cacheMissing => "cache"
  | logLevel | logDirectory => "logging"

/-- The name of a key within its section. -/
def entryName : SettingKey → String
  | sceneryPaths => "paths"
  | tileDirectory | logDirectory => "directory"
  | primaryExtension => "primary_extension"
  | secondaryExtension => "secondary_extension"
  | cacheSize => "max_size"
  | cacheMissing => "memoize_missing"
  | logLevel => "level"

/-- The full name of a key. -/
def name (key : SettingKey) : String :=
  key.sectionName ++ "." ++ key.entryName

/-- The key of a name, with blanks around it ignored and letters in either case. -/
def parse? (name : String) : Option SettingKey :=
  all.find? fun key => key.name.toList == (Text.trim name.toList).map Char.toLower

end SettingKey

namespace Settings

/-- What stands between the scenery roots when they are written as one text. -/
def pathSeparator : Char := ';'

/-- Paths as one text. -/
def pathsText (paths : List Path) : String :=
  String.ofList (Text.joinWith pathSeparator (paths.map (·.text.toList)))

/-- The value of a setting as it is shown and written. A directory that is not set is shown as
nothing. -/
def get (s : Settings) : SettingKey → String
  | .sceneryPaths => pathsText s.sceneryPaths
  | .tileDirectory => s.cache.layout.directory
  | .primaryExtension => s.cache.layout.primaryExtension
  | .secondaryExtension => s.cache.layout.secondaryExtension
  | .cacheSize => String.ofList (Size.exactText s.cache.maxBytes)
  | .cacheMissing => if s.cache.memoizeMissing then "true" else "false"
  | .logLevel => s.logLevel
  | .logDirectory =>
    match s.logDirectory with
    | some directory => directory.text
    | none => ""

end Settings

end Orthomosaic
