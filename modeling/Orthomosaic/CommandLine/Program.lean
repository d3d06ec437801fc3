import Orthomosaic.CommandLine.Run

/-!
# The program

What the program answers to its arguments, and which paths it has to look at for that.
-/

namespace Orthomosaic.CommandLine

/-- The line that tells the version. -/
def versionLine : String := "orthotile 0.1.0"

/-- The lines that explain the commands. -/
def usageLines : List String :=
  [ "Usage: orthotile [--scenery <PATH>]... [--config <FILE>] <COMMAND>",
    "",
    "Commands:",
    "  bucket --lon <LON> --lat <LAT>",
    "  tile   --lon <LON> --lat <LAT> [--output <FILE>]",
    "  area   --min-lon <LON> --min-lat <LAT> --max-lon <LON> --max-lat <LAT>",
    "         [--output <FILE>] [--json]",
    "  config init [--force] | show | get <KEY> | set <KEY> <VALUE> | path" ]

/-- What the program answers. -/
structure Answer where
  code : Nat
  output : List String
  messages : List String
  files : Files

/-- The answer when the reading of arguments has ended. -/
def Stop.answer (files : Files) : Stop → Answer
  | .version => ⟨0, [versionLine], [], files⟩
  | .help => ⟨0, usageLines, [], files⟩
  | .refused e => ⟨2, [], s!"error: {e.message}" :: "" :: usageLines, files⟩

/-- The answer to arguments. -/
def answer (home : Option Path) (files : Files) (arguments : List String) : Answer :=
  match readRequest arguments with
  | .error stop => stop.answer files
  | .ok (choices, request) =>
    let o := run home files choices request
    ⟨o.code, o.lines, o.notices, o.files⟩

/-- The buckets whose tiles a request looks up. -/
def GroundRequest.buckets : GroundRequest → List Bucket
  | .tile lon lat _ => [.containing lon lat]
  | .area minLon minLat maxLon maxLat _ _ =>
    match BucketGrid.resolve (Bounds.ofEdges minLon minLat maxLon maxLat) with
    | .ok (some grid) => grid.cells
    | _ => []

/-- The file that a request saves an image to. -/
def GroundRequest.output : GroundRequest → Option Path
  | .tile _ _ output => output
  | .area _ _ _ _ output _ => output

/-- The paths that a request looks at besides the settings file, given what is in that file. -/
def pathsOf (home : Option Path) (files : Files) (choices : Choices) : Request → List Path
  | .ground request =>
    match choices.settings home files with
    | .error _ => []
    | .ok s =>
      let roots := choices.roots s
      let tiles := request.buckets.flatMap fun b =>
        roots.flatMap fun root => s.cache.layout.candidates root b.directory b.index
      roots ++ tiles ++ request.output.toList ++ s.logDirectory.toList
  | _ => []

end Orthomosaic.CommandLine
