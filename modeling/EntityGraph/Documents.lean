import EntityGraph.Files.Tree
import EntityGraph.Model.Project
import EntityGraph.Text.Utf8
import EntityGraph.Yaml.Document

/-!
# Reading documents

Documents from texts and from files, with the map of where their nodes stand. A reader may keep what
it read: a file that is still there is then not read again, until the reader is cleared. Only what
was read without an error is kept.
-/

namespace EntityGraph

/-- Why there is no document. -/
inductive LoadError where
  | notFound (p : Files.Path)
  | notAFile (p : Files.Path)
  /-- It cannot be found out whether there is a file. -/
  | noAccess (e : Files.AccessError)
  /-- There is a file, and it cannot be read. -/
  | unreadable (e : Files.AccessError)
  | notText (p : Files.Path) (e : Text.Utf8.Error)
  /-- The text of an origin is flawed. -/
  | flawed (origin text : Text) (f : Yaml.Failure)
  /-- The text asks for a value that does not exist. -/
  | impossible (f : Yaml.Failure)
  deriving DecidableEq, Repr

namespace LoadError

/-- Whether an error is about the document. A value that does not exist is not reported as such, and
neither is a file that cannot be looked up. -/
def isReported : LoadError → Bool
  | .impossible _ | .noAccess _ => false
  | _ => true

/-- The word that names the kind of error in a report. -/
def label : LoadError → String
  | .impossible f => f.label
  | .noAccess e => e.label
  | _ => "DocumentLoadError"

/-- What a report says about an error, with flaws told in some words. -/
def message (words : Yaml.Wording) : LoadError → Text
  | .notFound p => "Document file not found: " ++ p.text
  | .notAFile p => "Path is not a file: " ++ p.text
  | .noAccess e => e.message
  | .unreadable e => "Failed to read document file " ++ e.path.text ++ ": " ++ e.message
  | .notText p e => "Failed to read document file " ++ p.text ++ ": " ++ e.message
  | .flawed origin text f => "Failed to parse document " ++ origin ++ ": " ++ words text f
  | .impossible f => f.impossibility

/-- The error of a failure in the text of an origin. -/
def ofFailure (origin text : Text) (f : Yaml.Failure) : LoadError :=
  if f.isFlaw then .flawed origin text f else .impossible f

end LoadError

/-- A document and where its nodes stand. -/
structure Loaded where
  document : Value
  sourceMap : Source.Map
  deriving Repr

namespace Loaded

/-- The document in the text of an origin. -/
def documentOf (origin text : Text) (label : Nat := Yaml.firstLabel) : Except LoadError Value :=
  (Yaml.read text label).mapError (.ofFailure origin text)

/-- Reads the text of an origin. -/
def ofText (origin text : Text) : Except LoadError Loaded := do
  let document ← documentOf origin text
  let sourceMap ← (Yaml.sourceMap text).mapError (.ofFailure origin text)
  return { document, sourceMap }

/-- Reads the bytes of a file. -/
def ofBytes (p : Files.Path) (bytes : List UInt8) : Except LoadError Loaded := do
  let text ← (Text.Utf8.decode bytes).mapError (.notText p)
  ofText p.text (.ofChars (Text.unifyLineEnds text))

/-- Reads a file that holds some bytes, unless it is closed. -/
def ofFile (t : Files.Tree) (p : Files.Path) (bytes : List UInt8) : Except LoadError Loaded :=
  if t.isReadable p then ofBytes p bytes else .error (.unreadable ⟨.denied, p⟩)

end Loaded

/-- A reader of documents with what it keeps. -/
structure Reader where
  caching : Bool := true
  kept : List (Files.Path × Loaded) := []
  deriving Repr

namespace Reader

/-- What the reader keeps of a file. -/
def kept? (r : Reader) (p : Files.Path) : Option Loaded :=
  if r.caching then r.kept.lookup p else none

/-- Keeps what was read of a file. -/
def keep (r : Reader) (p : Files.Path) (l : Loaded) : Reader :=
  if r.caching then { r with kept := (p, l) :: r.kept } else r

/-- Reads a file, or answers with what was kept of it. -/
def load (r : Reader) (t : Files.Tree) (p : Files.Path) :
    Logged (Except LoadError Loaded × Reader) :=
  match t.find p with
  | .error e => pure (.error (.noAccess e), r)
  | .ok none => pure (.error (.notFound p), r)
  | .ok (some (.file bytes)) =>
    match r.kept? p with
    | some l => do
      Logged.note (.fromCache p.text)
      return (.ok l, r)
    | none => do
      Logged.note (.reading p.text)
      match Loaded.ofFile t p bytes with
      | .ok l => return (.ok l, r.keep p l)
      | .error e => return (.error e, r)
  | .ok (some _) => pure (.error (.notAFile p), r)

/-- Why a file gives no project. -/
inductive ProjectError where
  | load (e : LoadError)
  | fault (f : Fault)

namespace ProjectError

/-- The word that names the kind of error in a report. -/
def label : ProjectError → String
  | .load e => e.label
  | .fault f => f.label

def message (words : Yaml.Wording) : ProjectError → Text
  | .load e => e.message words
  | .fault f => f.message

end ProjectError

/-- Reads a file and loads the project that it describes, if it describes one. -/
def loadProject (r : Reader) (t : Files.Tree) (file : Text) :
    Logged (Except ProjectError (Option (Project Entity)) × Reader) := do
  match ← r.load t (.ofText file) with
  | (.error e, r) => return (.error (.load e), r)
  | (.ok l, r) =>
    match ← (Project.load l.document).outcome with
    | .error f => return (.error (.fault f), r)
    | .ok project =>
      if project.isNone then Logged.note (.notAProject file)
      return (.ok project, r)

/-- Forgets everything that was kept. -/
def clear (r : Reader) : Logged Reader := do
  Logged.note .cacheCleared
  return { r with kept := [] }

end Reader

end EntityGraph
