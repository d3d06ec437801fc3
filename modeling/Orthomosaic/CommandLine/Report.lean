import Orthomosaic.Bounds.Document
import Orthomosaic.Bucket.Directory
import Orthomosaic.Orthophoto
import Orthomosaic.Settings.Basic
import Orthomosaic.Tile.Statistics

/-!
# Reports

What the program shows of a bucket, of an orthophoto and of the settings, line by line.
-/

namespace Orthomosaic.CommandLine

/-- The lines on a bucket. -/
def bucketLines (b : Bucket) : List String :=
  let bounds : Bounds Float := b.bounds
  let degrees := fun (x : Float) => Decimal.message x ++ "°"
  [ s!"Bucket {b.index}",
    s!"  Path:       {b.directory}",
    s!"  Centre:     {Decimal.fixed 6 b.centerLon}, {Decimal.fixed 6 b.centerLat}",
    s!"  Size:       {degrees b.width} x {degrees b.height}",
    s!"  Bounds:     {bounds.text}" ]

/-- The lines on an orthophoto. -/
def photoLines (p : Orthophoto Float) : List String :=
  [ s!"  Image:      {p.width}x{p.height} px",
    s!"  Bounds:     {p.bounds.text}",
    s!"  Extent:     {Decimal.fixed 6 p.bounds.width}° x {Decimal.fixed 6 p.bounds.height}°" ]

/-- The first line on a tile. -/
def tileLine (b : Bucket) : String :=
  s!"Bucket {b.index} ({b.directory})"

/-- The line on a tile that is nowhere. -/
def noTileLine (roots : Nat) : String :=
  s!"  No orthophoto found in {roots} scenery path(s)"

/-- The line on where a point lies on an orthophoto. -/
def texCoordLine (p : Orthophoto Float) (lon lat : Float) : String :=
  let (u, v) := p.texCoord lon lat
  s!"  Tex coord:  ({Decimal.fixed 4 u}, {Decimal.fixed 4 v})"

/-- The line on an image that has been saved. -/
def savedLine (p : Path) : String :=
  s!"  Saved to:   {p.text}"

/-- The line on a cache. -/
def cacheLine (s : CacheStatistics) (limit : Nat) : String :=
  s!"  Cache:      {Size.text s.bytes} of {Size.text limit} ({s.loads} loads, {s.probes} probes)"

/-- The lines on a rectangle. -/
def areaLines (requested : Bounds Float) (photo : Option (Orthophoto Float))
    (s : CacheStatistics) (limit : Nat) : List String :=
  let found :=
    match photo with
    | some p => photoLines p
    | none => ["  No orthophoto coverage"]
  s!"Area {requested.text}" :: found ++ [cacheLine s limit]

/-- The document on a rectangle, its members in alphabetical order. -/
def areaDocument (requested : Bounds Float) (photo : Option (Orthophoto Float)) : Json :=
  let box : String × Json :=
    ("requested", .object
      [ ("north", .ofFloat requested.north), ("south", .ofFloat requested.south),
        ("span", .ofFloat requested.span), ("west", .ofFloat requested.west) ])
  match photo with
  | none => .object [("found", .bool false), box]
  | some p =>
    .object
      [ ("bounds", .object
          [ ("hemisphere", p.bounds.hemisphere.toJson), ("max_lat", .ofFloat p.bounds.north),
            ("max_lon", .ofFloat p.bounds.east), ("min_lat", .ofFloat p.bounds.south),
            ("min_lon", .ofFloat p.bounds.west) ]),
        ("found", .bool true), ("height", .ofNat p.height), box, ("width", .ofNat p.width) ]

/-- A value as it is shown. -/
def shownValue (value : String) : String :=
  if value.isEmpty then "(not set)" else value

/-- The line on a setting. -/
def settingLine (s : Settings) (key : SettingKey) : String :=
  s!"  {key.entryName} = {shownValue (s.get key)}"

/-- The lines on some settings, each section of them under its name; `current` is the section that
has been shown last. -/
def settingLines (s : Settings) (current : Option String) : List SettingKey → List String
  | [] => []
  | key :: rest =>
    let line := settingLine s key
    let name := key.sectionName
    if current = some name then line :: settingLines s current rest
    else
      (if current.isSome then [""] else []) ++ s!"[{name}]" :: line :: settingLines s name rest

/-- The lines on all settings and on scenery roots that are given besides them. -/
def overviewLines (s : Settings) (scenery : List Path) : List String :=
  let given :=
    if scenery.isEmpty then []
    else "" :: "Command-line scenery (searched first):" :: scenery.map fun p => s!"  {p.text}"
  settingLines s none SettingKey.all ++ given

end Orthomosaic.CommandLine
