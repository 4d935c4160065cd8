import EntityGraph.Files.Path
import EntityGraph.Text.Quoted

/-!
# File trees

The files that a run can see, as a tree of directories. A path is followed from the top or from the
working directory; a pair of points leads back to the enclosing directory, but only from a directory
that is there. Names and paths are limited in length, and not every text can name a file.

Not everything that is there can be used. A file or a directory may be closed to reading, so that
its bytes or the names in it are not told, and a directory may be closed to passing, so that nothing
in it can be looked up. To look something up is to pass every directory on the way; to read it is
another matter.
-/

namespace EntityGraph.Files

/-- What stands under a name in a directory. -/
inductive Entry where
  | file (bytes : List UInt8)
  | directory (entries : List (Text × Entry))
  /-- Neither a file nor a directory. -/
  | device
  deriving Repr

namespace Entry

def isDirectory : Entry → Bool
  | .directory _ => true
  | _ => false

/-- The entries of a directory; nothing else has any. -/
def entries : Entry → List (Text × Entry)
  | .directory es => es
  | _ => []

/-- What the names lead to, one directory after the other. -/
def find? (e : Entry) : List Text → Option Entry
  | [] => some e
  | name :: rest => do (← e.entries.lookup name).find? rest

/-- Puts an entry under a name in a list of entries, in the place of what it replaces. -/
def putIn (name : Text) (e : Entry) : List (Text × Entry) → List (Text × Entry)
  | [] => [(name, e)]
  | (n, old) :: rest => if n = name then (name, e) :: rest else (n, old) :: putIn name e rest

/-- Puts an entry where the names lead to; directories on the way are made. -/
def put (new : Entry) : List Text → Entry → Entry
  | [], _ => new
  | name :: rest, e =>
    let inner := (e.entries.lookup name).getD (.directory [])
    .directory (putIn name (put new rest inner) e.entries)

/-- Takes away what the names lead to. -/
def remove : List Text → Entry → Entry
  | [], e => e
  | [name], e => .directory (e.entries.filter (·.1 ≠ name))
  | name :: rest, e =>
    match e.entries.lookup name with
    | none => e
    | some inner => .directory (putIn name (remove rest inner) e.entries)

end Entry

/-! ## Names -/

namespace Name

/-- The most bytes of a name. -/
def limit : Nat := 255

/-- The most bytes of a path. -/
def pathLimit : Nat := 4095

/-- The bytes of a code point in a name. The halves of pairs from `0xDC80` up to `0xDCFF` stand for
single bytes. -/
def pointSize (x : CodePoint) : Nat :=
  match x with
  | .half _ => 1
  | .char c => c.utf8Size

/-- The bytes of a text in a name. -/
def size (t : Text) : Nat := t.foldl (fun n x ↦ n + pointSize x) 0

/-- Whether a text can name a file: it has no NUL, and no half of a pair but those that stand for
bytes. -/
def isPossible (t : Text) : Bool :=
  t.all fun
    | .char c => c != '\x00'
    | .half offset => 0x480 ≤ offset.val && offset.val < 0x500

end Name

/-! ## Refusals -/

/-- Why something cannot be done with a path. -/
inductive Refusal where
  /-- The path is too long, or a name in it is. -/
  | tooLong
  /-- A directory on the way may not be passed, or what is there may not be read. -/
  | denied
  deriving DecidableEq, Repr

namespace Refusal

/-- The word that names the kind of error in a report. -/
def label : Refusal → String
  | .tooLong => "OSError"
  | .denied => "PermissionError"

def message : Refusal → String
  | .tooLong => "[Errno 36] File name too long"
  | .denied => "[Errno 13] Permission denied"

end Refusal

/-- Why a path leads to nothing. -/
inductive Miss where
  | absent
  | refused (r : Refusal)
  deriving DecidableEq, Repr

/-- What is asked for under a path is refused. -/
structure AccessError where
  refusal : Refusal
  path : Path
  deriving DecidableEq, Repr

namespace AccessError

/-- The word that names the kind of error in a report. -/
def label (e : AccessError) : String := e.refusal.label

def message (e : AccessError) : Text := e.refusal.message ++ ": " ++ e.path.text.quoted

end AccessError

/-! ## Trees -/

/-- A file tree, where in it the working directory is, and what in it is closed. Places are given by
the names that lead to them from the top on. -/
structure Tree where
  top : Entry := .directory []
  workingDirectory : List Text := []
  /-- The places of files and directories that may not be read. -/
  unreadable : List (List Text) := []
  /-- The places of directories that may not be passed. -/
  impassable : List (List Text) := []
  deriving Repr

namespace Tree

/-- Where a path starts. -/
def start (t : Tree) (p : Path) : List Text :=
  if p.root = .workingDirectory then t.workingDirectory else []

/-- Whether what stands at a place may be read, the place given by its names from the innermost
on. -/
def canRead (t : Tree) (place : List Text) : Bool := !t.unreadable.contains place.reverse

/-- Whether the directory at a place may be passed. -/
def canPass (t : Tree) (place : List Text) : Bool := !t.impassable.contains place.reverse

/-- Follows names from a place, given by its names from the innermost on. -/
def follow (t : Tree) (place : List Text) : List Text → Except Miss (List Text)
  | [] => .ok place
  | name :: rest =>
    match t.top.find? place.reverse with
    | some (.directory _) =>
      if !t.canPass place then .error (.refused .denied)
      else if Name.limit < Name.size name then .error (.refused .tooLong)
      else if name = ".." then t.follow place.tail rest
      else t.follow (name :: place) rest
    | _ => .error .absent

/-- The place that a path leads to. -/
def place (t : Tree) (p : Path) : Except Miss (List Text) := t.follow (t.start p).reverse p.parts

/-- The entry that a path leads to, if there is one. -/
def find (t : Tree) (p : Path) : Except AccessError (Option Entry) :=
  if !Name.isPossible p.text then .ok none
  else if Name.pathLimit < Name.size p.text then .error ⟨.tooLong, p⟩
  else
    match t.place p with
    | .ok place => .ok (t.top.find? place.reverse)
    | .error .absent => .ok none
    | .error (.refused r) => .error ⟨r, p⟩

/-- Whether what a path leads to may be read. -/
def isReadable (t : Tree) (p : Path) : Bool :=
  match t.place p with
  | .ok place => t.canRead place
  | .error _ => false

/-- The names of a path from the top on, its pairs of points worked off by name alone. -/
def location (t : Tree) (p : Path) : List Text :=
  (p.parts.foldl
    (fun (place : List Text) (name : Text) ↦ if name = ".." then place.tail else name :: place)
    (t.start p).reverse).reverse

/-- Puts an entry under a path. -/
def put (t : Tree) (p : Path) (e : Entry) : Tree :=
  { t with top := Entry.put e (t.location p) t.top }

/-- Takes away what is under a path. What is put there later is not closed. -/
def remove (t : Tree) (p : Path) : Tree :=
  let isApart (place : List Text) : Bool :=
    (t.location p).isEmpty || !(t.location p).isPrefixOf place
  { t with
    top := Entry.remove (t.location p) t.top
    unreadable := t.unreadable.filter isApart
    impassable := t.impassable.filter isApart }

end Tree

end EntityGraph.Files
