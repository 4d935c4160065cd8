import EntityGraph.Files.Tree

/-!
# The search for project documents

Which documents a list of paths stands for. A file stands for itself if its suffix is one of a
document; a directory stands for everything below it whose name is one of a project document. What
cannot be listed on the way down is left out without a word.
-/

namespace EntityGraph.Files

/-- The suffixes of documents. -/
def documentSuffixes : List Text := [".yaml", ".yml", ".json"]

/-- Whether a name is one of a project document. -/
def isProjectName (name : Text) : Bool :=
  documentSuffixes.any fun s ↦ (".project" ++ s : Text).isSuffixOf name

/-- Why a path stands for nothing. -/
inductive SearchWarning where
  | missing (p : Path)
  | notADocument (p : Path)
  | unknownKind (p : Path)
  deriving DecidableEq, Repr

def SearchWarning.message : SearchWarning → Text
  | .missing p => "Warning: Path does not exist: " ++ p.text
  | .notADocument p => "Warning: File is not a YAML or JSON document: " ++ p.text
  | .unknownKind p => "Warning: Path is neither file nor directory: " ++ p.text

section

variable (t : Tree)

/-- Whether the directory at a place can be listed: the one around it may be passed, and its own
names may be read. -/
def Tree.canList (place : List Text) : Bool := t.canPass place.tail && t.canRead place

mutual

/-- The paths below an entry at a place whose names are ones of project documents. A directory below
whose own path is too long breaks the search off; one that cannot be listed has nothing below. -/
def projectPaths (place : List Text) (p : Path) : Entry → Except AccessError (List Path)
  | .directory entries =>
    if Name.pathLimit < Name.size p.text then .error ⟨.tooLong, p⟩
    else if t.canList place then projectPathsIn place p entries
    else .ok []
  | _ => .ok []

def projectPathsIn (place : List Text) (p : Path) :
    List (Text × Entry) → Except AccessError (List Path)
  | [] => .ok []
  | (name, e) :: rest => do
    let below ← projectPaths (name :: place) (p.child name) e
    let later ← projectPathsIn place p rest
    return (if isProjectName name then [p.child name] else []) ++ below ++ later

end

/-- The paths below the directory with some entries that a path leads to. -/
def Tree.projectPathsAt (p : Path) (entries : List (Text × Entry)) :
    Except AccessError (List Path) :=
  match t.place p with
  | .ok place => if t.canRead place then projectPathsIn t place p entries else .ok []
  | .error _ => .ok []

/-- What one path stands for, or why it stands for nothing. A refusal is no such reason: nothing can
be found out about a path that is too long or leads through a closed directory. -/
def Tree.search (p : Path) : Except AccessError (Except SearchWarning (List Path)) := do
  match ← t.find p with
  | none => return .error (.missing p)
  | some (.file _) =>
    return if documentSuffixes.contains p.suffix then .ok [p] else .error (.notADocument p)
  | some (.directory entries) => return .ok (← t.projectPathsAt p entries)
  | some .device => return .error (.unknownKind p)

end

/-- What a search comes to: the documents that were found, unless a refusal broke it off, and the
warnings up to there. -/
structure Search where
  documents : Except AccessError (List Path)
  warnings : List SearchWarning := []
  deriving Repr

/-- The documents of paths one after the other, and the warnings about those that stand for
nothing. -/
def Tree.searchAll (t : Tree) : List Path → Search
  | [] => ⟨.ok [], []⟩
  | p :: rest =>
    match t.search p with
    | .error e => ⟨.error e, []⟩
    | .ok result =>
      let later := t.searchAll rest
      match result with
      | .ok ps => { later with documents := later.documents.map (ps ++ ·) }
      | .error w => { later with warnings := w :: later.warnings }

/-- The documents of a list of paths, each once and in the order of paths. -/
def Tree.projectDocuments (t : Tree) (paths : List Path) : Search :=
  let s := t.searchAll paths
  { s with documents := s.documents.map fun ps ↦ ps.eraseDups.mergeSort Path.le }

end EntityGraph.Files
