import Orthomosaic.CommandLine.Report
import Orthomosaic.CommandLine.Request
import Orthomosaic.Geodesy.Position
import Orthomosaic.Lookup.Area
import Orthomosaic.Lookup.Roots
import Orthomosaic.Raster.FileFormat
import Orthomosaic.Scenery
import Orthomosaic.Settings.File

/-!
# Runs

A run carries out one request on a tree of files. It shows lines, changes files, and may end with an
error; what was shown and changed before stays.
-/

namespace Orthomosaic.CommandLine

/-- The files that a run works on. -/
abbrev Files := FileTree (List UInt8)

/-- Why a run ends. -/
inductive RunError where
  | settings (error : SettingsError)
  | unknownKey (name : String)
  | settingsExist (path : Path)
  | position (error : PositionError)
  | latitudeOrder (south north : Float)
  | missingRoot (error : MissingRoot)
  | mosaic (error : MosaicError Float)
  | output (error : SaveError)

/-- The wording of the error. -/
def RunError.message : RunError → String
  | settings error => s!"Configuration error: {error.message}"
  | unknownKey name =>
    s!"Configuration error: Unknown configuration key '{name}'. "
      ++ "Use 'orthotile config show' to see available keys."
  | settingsExist path =>
    s!"Configuration error: {path.text} already exists. Use --force to overwrite it."
  | position error => s!"Invalid argument: {error.message}"
  | latitudeOrder south north =>
    s!"Invalid argument: max-lat {Decimal.message north} is south of "
      ++ s!"min-lat {Decimal.message south}"
  | missingRoot error => error.message
  | mosaic error => error.report
  | output error => s!"Failed to write output: {error.message}"

/-- What a run has shown and changed, and the error that has ended it. -/
structure Outcome where
  lines : List String
  warnings : List String
  error : Option RunError
  files : Files

namespace Outcome

/-- A run that has shown some lines. -/
def shown (files : Files) (lines : List String) : Outcome := ⟨lines, [], none, files⟩

/-- A run that has ended with an error. -/
def failed (files : Files) (error : RunError) : Outcome := ⟨[], [], some error, files⟩

/-- The outcome of a run that has shown other lines before. -/
def after (lines : List String) (o : Outcome) : Outcome := { o with lines := lines ++ o.lines }

/-- What the run tells of itself besides the lines it shows. -/
def notices (o : Outcome) : List String :=
  o.warnings ++ (o.error.map fun e => s!"Error: {e.message}").toList

/-- The number by which a run tells whether it has gone well. -/
def code (o : Outcome) : Nat :=
  if o.error.isSome then 1 else 0

end Outcome

/-- The settings file of a run. -/
def Choices.file (choices : Choices) (home : Option Path) : Path :=
  choices.settingsFile.getD (Settings.defaultFile home)

/-- The settings of a run. -/
def Choices.settings (choices : Choices) (home : Option Path) (files : Files) :
    Except RunError Settings :=
  (Settings.load home files (choices.file home)).mapError .settings

/-- The level at which is logged, and the files with the directory for log files made. -/
def setUpLog (files : Files) (s : Settings) : Except LoggingError LogLevel × Files :=
  match loggingLevel s.logLevel, s.logDirectory with
  | .error e, _ => (.error e, files)
  | .ok level, none => (.ok level, files)
  | .ok level, some directory =>
    match files.makeDirectories directory with
    | (true, files) => (.ok level, files)
    | (false, files) => (.error (.directory directory.text), files)

/-- The files after logging has been set up, and what there is to warn of: a run goes on without it.
-/
def prepareLog (files : Files) (s : Settings) : List String × Files :=
  match setUpLog files s with
  | (.ok _, files) => ([], files)
  | (.error e, files) => ([s!"Warning: logging disabled: {e.message}"], files)

/-- What stands at a path for a lookup. -/
def lookIn (files : Files) : Path → Candidate :=
  files.candidate Raster.decodeFile?

/-- The end of a run: the orthophoto saved, if a file for it is named. -/
def saveTo (files : Files) (p : Orthophoto Float) (quiet : Bool) : Option Path → Outcome
  | none => .shown files []
  | some path =>
    match p.image.raster.save files path with
    | (.ok _, files) => .shown files (if quiet then [] else [savedLine path])
    | (.error e, files) => .failed files (.output e)

/-- The tile at a point. -/
def runTile (files : Files) (cache : TileCache) (lon lat : Float) (output : Option Path) :
    Outcome :=
  let b := Bucket.containing lon lat
  match cache.bucketPhoto (lookIn files) b with
  | (none, cache) => .shown files [tileLine b, noTileLine cache.roots.length]
  | (some p, _) =>
    (saveTo files p false output).after (tileLine b :: photoLines p ++ [texCoordLine p lon lat])

/-- The mosaic of a rectangle. -/
def runArea (files : Files) (cache : TileCache) (requested : Bounds Float)
    (output : Option Path) (asDocument : Bool) : Outcome :=
  match cache.areaPhoto (lookIn files) requested with
  | (.error e, _) => .failed files (.mosaic e)
  | (.ok photo, cache) =>
    let lines :=
      if asDocument then [(areaDocument requested photo).pretty]
      else areaLines requested photo cache.settle.statistics cache.settings.maxBytes
    match photo with
    | none => .shown files lines
    | some p => (saveTo files p asDocument output).after lines

/-- Whether the ground that is asked for is on the globe. -/
def GroundRequest.check : GroundRequest → Except RunError Unit
  | .tile lon lat _ => (Position.checked lon lat).mapError .position *> .ok ()
  | .area minLon minLat maxLon maxLat _ _ => do
    let _ ← (Position.checked minLon minLat).mapError .position
    let _ ← (Position.checked maxLon maxLat).mapError .position
    if maxLat < minLat then .error (.latitudeOrder minLat maxLat) else .ok ()

/-- The imagery of some ground, looked up in a cache. -/
def GroundRequest.run (files : Files) (cache : TileCache) : GroundRequest → Outcome
  | .tile lon lat output => runTile files cache lon lat output
  | .area minLon minLat maxLon maxLat output asDocument =>
    runArea files cache (.ofEdges minLon minLat maxLon maxLat) output asDocument

/-- The scenery roots of a run. -/
def Choices.roots (choices : Choices) (s : Settings) : List Path :=
  Scenery.prioritize s.sceneryPaths choices.scenery

/-- The imagery of some ground. -/
def runGround (home : Option Path) (files : Files) (choices : Choices)
    (request : GroundRequest) : Outcome :=
  match request.check with
  | .error e => .failed files e
  | .ok _ =>
    match choices.settings home files with
    | .error e => .failed files e
    | .ok s =>
      let (warnings, files) := prepareLog files s
      let outcome : Outcome :=
        match TileCache.start files.isDirectory s.cache (choices.roots s) with
        | .error e => .failed files (.missingRoot e)
        | .ok cache => request.run files cache
      { outcome with warnings := warnings }

/-- The bucket at a point. -/
def runBucket (files : Files) (lon lat : Float) : Outcome :=
  match Position.checked lon lat with
  | .error e => .failed files (.position e)
  | .ok _ => .shown files (bucketLines (.containing lon lat))

/-- The key of a name. -/
def namedKey (name : String) : Except RunError SettingKey :=
  match SettingKey.parse? name with
  | some key => .ok key
  | none => .error (.unknownKey name)

/-- What there is to say of a settings file that has just been written. -/
def createdLines (file : Path) : List String :=
  [ s!"Configuration file: {file.text}", "",
    "Add scenery roots with 'orthotile config set scenery.paths <dir;dir>'." ]

/-- The settings saved, and the lines that then are shown. -/
def saveSettings (files : Files) (file : Path) (s : Settings) (lines : List String) : Outcome :=
  match s.save files file with
  | (.ok _, files) => .shown files lines
  | (.error e, files) => .failed files (.settings e)

/-- What is asked about settings. -/
def runSettings (home : Option Path) (files : Files) (choices : Choices) :
    SettingsRequest → Outcome
  | .create force =>
    let file := choices.file home
    if (files.find? file).isSome && !force then .failed files (.settingsExist file)
    else saveSettings files file .standard (createdLines file)
  | .overview =>
    match choices.settings home files with
    | .error e => .failed files e
    | .ok s => .shown files (overviewLines s choices.scenery)
  | .get name =>
    let value : Except RunError String := do
      let key ← namedKey name
      let s ← choices.settings home files
      .ok (s.get key)
    match value with
    | .error e => .failed files e
    | .ok value => .shown files [shownValue value]
  | .change name value =>
    let changed : Except RunError (SettingKey × Settings) := do
      let key ← namedKey name
      let s ← choices.settings home files
      .ok (key, ← (s.set home key value).mapError fun e => .settings (.invalid e))
    match changed with
    | .error e => .failed files e
    | .ok (key, s) =>
      saveSettings files (choices.file home) s [s!"Set {key.name} = {s.get key}"]
  | .location => .shown files [(choices.file home).text]

/-- What is asked, carried out. -/
def run (home : Option Path) (files : Files) (choices : Choices) : Request → Outcome
  | .bucket lon lat => runBucket files lon lat
  | .ground request => runGround home files choices request
  | .settings request => runSettings home files choices request

end Orthomosaic.CommandLine
