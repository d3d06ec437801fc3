import Orthomosaic.CommandLine.Program

/-!
# The command line

The part of the program that touches files. It reads what the request looks at into a tree, lets
the request run on the tree, and brings the files up to date with what has changed there.
-/

namespace Orthomosaic.CommandLine

/-- The tree with what stands at a path, and with the directory that holds it. -/
def readPath (files : Files) (p : Path) : IO Files := do
  let file := (← IO.currentDir) / p.text
  if ← file.isDir then
    return (files.makeDirectories p).2
  if ← file.pathExists then
    let content ← IO.FS.readBinFile file
    return (files.put p content.data.toList).2
  match p.parent? with
  | some above =>
    if ← ((← IO.currentDir) / above.text).isDir then
      return (files.makeDirectories above).2
    return files
  | none => return files

/-- The place of the working directory. -/
def currentPlace : IO Place := do
  let here ← IO.currentDir
  return ((Text.splitOn '/' here.toString.toList).filter (· ≠ [])).reverse

/-- Writes one entry of a tree. -/
def writeEntry (place : Place) (entry : FileEntry (List UInt8)) : IO Unit := do
  let name := String.ofList (place.reverse.flatMap ('/' :: ·))
  match entry with
  | .directory => IO.FS.createDirAll name
  | .file content => IO.FS.writeBinFile name ⟨content.toArray⟩

/-- The files that a request needs. -/
def gather (home : Option Path) (choices : Choices) (request : Request) : IO Files := do
  let files ← readPath (.empty (← currentPlace)) (choices.file home)
  (pathsOf home files choices request).foldlM readPath files

/-- The home directory, if the environment names one. -/
def homeDirectory : IO (Option Path) := do
  return ((← IO.getEnv "HOME").filter (!·.isEmpty)).map Path.mk

/-- Runs the program on its arguments and gives the number by which it tells how that went. -/
def runProgram (arguments : List String) : IO UInt32 := do
  let home ← homeDirectory
  let before ←
    match readRequest arguments with
    | .ok (choices, request) => gather home choices request
    | .error _ => pure (.empty [])
  let result := answer home before arguments
  for line in result.output do IO.println line
  for (place, entry) in result.files.changesSince before do writeEntry place entry
  for line in result.messages do IO.eprintln line
  return result.code.toUInt32

end Orthomosaic.CommandLine

/-- The program. -/
def main (arguments : List String) : IO UInt32 :=
  Orthomosaic.CommandLine.runProgram arguments
