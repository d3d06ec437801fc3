import Orthomosaic.Path

/-!
# Trees of files

The files that a program sees, as a value: which directories there are, what each file holds, and
which directory the program works in. A path leads to a place if every directory on the way is
there, also one that the path leaves again.
-/

namespace Orthomosaic

/-- The name of a file or directory. -/
abbrev FileName := List Char

/-- Whether a file can have a name: it takes at most 255 bytes. -/
def FileName.isUsable (name : FileName) : Bool :=
  decide ((String.ofList name).utf8ByteSize ≤ 255)

/-- Whether a path can lead anywhere: it holds no zero character and takes at most 4095 bytes. -/
def Path.isUsable (p : Path) : Bool :=
  !p.text.toList.contains '\x00' && decide (p.text.utf8ByteSize ≤ 4095)

/-- A place in the tree: the names on the way there from the root, the last one first. -/
abbrev Place := List FileName

/-- What stands at a place. -/
inductive FileEntry (β : Type) where
  | directory
  | file (content : β)
deriving BEq

/-- Files and directories, and the working directory among them, which needs no entry itself, nor do
those above it. -/
structure FileTree (β : Type) where
  here : Place
  entries : List (Place × FileEntry β)

namespace FileTree

variable {β : Type}

/-- The tree of an empty working directory. -/
def empty (here : Place) : FileTree β := ⟨here, []⟩

/-- What stands at a place. -/
def entryAt? (tree : FileTree β) (place : Place) : Option (FileEntry β) :=
  if place.isSuffixOf tree.here then some .directory
  else (tree.entries.find? (·.1 == place)).map (·.2)

/-- Whether a directory stands at a place. -/
def isDirectoryAt (tree : FileTree β) (place : Place) : Bool :=
  match tree.entryAt? place with
  | some .directory => true
  | _ => false

/-- One step from a place, which must be a directory, by a name that a file can have. -/
def step? (tree : FileTree β) (place : Place) (step : PathStep) : Option Place :=
  if tree.isDirectoryAt place then
    match step with
    | .root => some []
    | .here => some place
    | .up => some (place.drop 1)
    | .entry name => if FileName.isUsable name then some (name :: place) else none
  else none

/-- Whether the text of a path asks for a directory. -/
def wantsDirectory (p : Path) : Bool :=
  p.endsWithSeparator || p.endsInDot

/-- The place of a path, if the directories on the way are there. The empty path has none. -/
def place? (tree : FileTree β) (p : Path) : Option Place :=
  if p.text.isEmpty || !p.isUsable then none else p.steps.foldlM tree.step? tree.here

/-- What a path leads to. -/
def find? (tree : FileTree β) (p : Path) : Option (FileEntry β) :=
  match (tree.place? p).bind tree.entryAt? with
  | some (.file content) => if wantsDirectory p then none else some (.file content)
  | found => found

/-- Whether a path leads to a directory. -/
def isDirectory (tree : FileTree β) (p : Path) : Bool :=
  match tree.find? p with
  | some .directory => true
  | _ => false

/-- What the file at a path holds. -/
def file? (tree : FileTree β) (p : Path) : Option β :=
  match tree.find? p with
  | some (.file content) => some content
  | _ => none

/-- The tree with something else at a place. -/
def insert (tree : FileTree β) (place : Place) (entry : FileEntry β) : FileTree β :=
  { tree with entries := (place, entry) :: tree.entries.filter (·.1 != place) }

/-- One step from a place that makes the directory it leads to, if nothing is there. -/
def enter? (tree : FileTree β) (place : Place) (step : PathStep) :
    Option (FileTree β × Place) := do
  let place ← tree.step? place step
  match tree.entryAt? place with
  | some .directory => some (tree, place)
  | none => some (tree.insert place .directory, place)
  | some (.file _) => none

/-- The tree with the directories that some steps lead through from a place, and whether all could be
made. A file in the way ends the walk; what was made before it stays. -/
def makeDirectoriesFrom (tree : FileTree β) (place : Place) : List PathStep → Bool × FileTree β
  | [] => (true, tree)
  | step :: rest =>
    match tree.enter? place step with
    | none => (false, tree)
    | some (tree, place) => makeDirectoriesFrom tree place rest

/-- The tree with the directories that a path leads through, and whether all could be made. A dot at
the end of a path stands for a directory that is there: it does not make the one in front of it. -/
def makeDirectories (tree : FileTree β) (p : Path) : Bool × FileTree β :=
  if p.text.isEmpty then (true, tree)
  else if !p.isUsable then (false, tree)
  else if p.endsInDot then
    let (_, tree) := tree.makeDirectoriesFrom tree.here p.steps.dropLast
    (tree.isDirectory p, tree)
  else tree.makeDirectoriesFrom tree.here p.steps

/-- The tree with a file written, if its directory is there and it is no directory itself. -/
def write? (tree : FileTree β) (p : Path) (content : β) : Option (FileTree β) :=
  match tree.place? p with
  | none => none
  | some place =>
    if wantsDirectory p || tree.isDirectoryAt place then none
    else some (tree.insert place (.file content))

/-- The tree with a file written and the directories above it made, and whether both went well. -/
def put (tree : FileTree β) (p : Path) (content : β) : Bool × FileTree β :=
  match tree.makeDirectories (p.parent?.getD ⟨""⟩) with
  | (false, tree) => (false, tree)
  | (true, tree) =>
    match tree.write? p content with
    | some tree => (true, tree)
    | none => (false, tree)

/-- The tree without the file that a path leads to, if it leads to one. -/
def remove? (tree : FileTree β) (p : Path) : Option (FileTree β) :=
  match tree.find? p, tree.place? p with
  | some (.file _), some place => some { tree with entries := tree.entries.filter (·.1 != place) }
  | _, _ => none

/-- What stands in the tree and did not stand there before, the oldest first. -/
def changesSince [BEq β] (tree before : FileTree β) : List (Place × FileEntry β) :=
  tree.entries.reverse.filter fun (place, entry) => before.entryAt? place != some entry

end FileTree

end Orthomosaic
