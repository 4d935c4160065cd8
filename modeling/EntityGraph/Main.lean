import EntityGraph.Lint.Run

/-!
# The command line

The linter on the files and the variables of a process. What the command line names is read into a
file tree first, with what in it is closed; the run itself is a function of that tree, of the
variables and of the words.
-/

namespace EntityGraph.CommandLine

open Files

/-- What was seen at a place of the disk, and which places from there on are closed. -/
structure Seen where
  entry : Entry
  unreadable : List (List Text) := []
  impassable : List (List Text) := []

namespace Seen

/-- What may not be read, and so is as good as empty. -/
def closed (e : Entry) : Seen := { entry := e, unreadable := [[]] }

/-- Something more in a directory. -/
def insert (s : Seen) (name : Text) (child : Seen) : Seen where
  entry := .directory (s.entry.entries ++ [(name, child.entry)])
  unreadable := s.unreadable ++ child.unreadable.map (name :: ·)
  impassable := s.impassable ++ child.impassable.map (name :: ·)

/-- A name in a directory that may not be passed: what stands there is not seen. -/
def insertUnseen (s : Seen) (name : Text) : Seen :=
  { s.insert name { entry := .file [] } with impassable := [[]] }

end Seen

def isDenied : IO.Error → Bool
  | .permissionDenied _ _ _ => true
  | _ => false

/-- Reads what stands at a place of the disk. Only documents are read as bytes, and a link to a
directory is followed only where it is named itself. -/
partial def readEntry (isNamed : Bool) (d : IO.FS.DirEntry) : IO Seen := do
  let isLink := (← d.path.symlinkMetadata).type == .symlink
  match (← d.path.metadata).type with
  | .file =>
    if documentSuffixes.contains (Path.ofText d.fileName).suffix then
      try return { entry := .file (← IO.FS.readBinFile d.path).toList }
      catch _ => return .closed (.file [])
    return { entry := .file [] }
  | .dir =>
    if isLink && !isNamed then return { entry := .directory [] }
    let children ←
      try d.path.readDir
      catch _ => return .closed (.directory [])
    children.toList.foldlM
      (fun seen child ↦ do
        try return seen.insert child.fileName (← readEntry false child)
        catch e => return if isDenied e then seen.insertUnseen child.fileName else seen)
      { entry := .directory [] }
  | _ => return { entry := .device }

/-- The directories that a path leads through, from the outermost on. -/
def enclosing (p : Path) : List Path :=
  (List.range p.parts.length).map fun n ↦ { p with parts := p.parts.take n }

/-- Puts what stands under a path of the disk into a tree, with the directories on the way. Where
the path cannot be followed any further, the last of them may not be passed. -/
def addPath (t : Tree) (p : Path) : IO Tree := do
  let here ← IO.currentDir
  let mut t := t
  let mut last := t.workingDirectory
  for q in enclosing p do
    if ← (here / q.text.toReadable).isDir then
      last := t.location q
      let isMissing := match t.find q with
        | .ok none => true
        | _ => false
      if isMissing then t := t.put q (.directory [])
  try
    let seen ← readEntry true { root := here, fileName := p.text.toReadable }
    let place := t.location p
    return { t.put p seen.entry with
      unreadable := t.unreadable ++ seen.unreadable.map (place ++ ·)
      impassable := t.impassable ++ seen.impassable.map (place ++ ·) }
  catch e =>
    return if isDenied e then { t with impassable := last :: t.impassable } else t

/-- The tree of the paths that a command line names. -/
def readTree (arguments : List Text) : IO Tree := do
  let place := Path.ofText (← IO.currentDir).toString
  let top := Entry.put (.directory []) place.parts (.directory [])
  let named := match Lint.readOptions arguments with
    | .ok (.lint o) => o.searched
    | _ => []
  named.foldlM addPath { top, workingDirectory := place.parts }

/-- The variables of the process that configure a run. -/
def readVariables : IO (List (Text × Text)) := do
  let names := ["LOG_LEVEL", "PRINT_LEVEL", "CACHE_ENABLED", "SOURCE_ROOT"].map fun name ↦
    Configuration.variableStart.toReadable ++ name
  names.filterMapM fun name ↦ do
    return (← IO.getEnv name).map fun v ↦ ((name : Text), (v : Text))

/-- A flaw of a document in a word. -/
def words : Yaml.Wording := fun _ f ↦ f.label

/-- Lints what a command line names and answers with the exit status. -/
def run (arguments : List Text) : IO UInt32 := do
  let c := Configuration.ofEnvironment (← readVariables)
  let outcome := Lint.run .utf8 words c (← readTree arguments) arguments
  (← IO.getStdout).putStr outcome.written.out.toReadable
  (← IO.getStderr).putStr outcome.written.err.toReadable
  match outcome.status with
  | .ok n => return n.toUInt32
  | .error e =>
    IO.eprintln (e.label ++ ": " ++ (e.message words).toReadable)
    return 1

end EntityGraph.CommandLine

/-- Lints what the command line names. -/
def main (arguments : List String) : IO UInt32 :=
  EntityGraph.CommandLine.run (arguments.map .ofString)
