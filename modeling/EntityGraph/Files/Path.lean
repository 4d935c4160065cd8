import EntityGraph.Text.Order

/-!
# Paths of files

A path is a root, if it has one, and the names after it. Empty names and single points are left out
when a path is read, so that `./a//b/` is `a/b`; a pair of points is kept. Two slashes at the start
are a root of their own, and more than two are the usual one.
-/

namespace EntityGraph.Files

/-- Where a path starts. -/
inductive Root where
  | workingDirectory
  | top
  /-- Two slashes. -/
  | other
  deriving DecidableEq, Repr

def Root.text : Root → Text
  | .workingDirectory => ""
  | .top => "/"
  | .other => "//"

/-- The path of a file or a directory. -/
structure Path where
  root : Root := .workingDirectory
  parts : List Text := []
  deriving DecidableEq, Repr

namespace Path

/-- Reads a path. -/
def ofText (t : Text) : Path where
  root := match t with
    | .char '/' :: .char '/' :: .char '/' :: _ => .top
    | .char '/' :: .char '/' :: _ => .other
    | .char '/' :: _ => .top
    | _ => .workingDirectory
  parts := (Text.partsBetween (.char '/') t).filter fun name ↦ name ≠ [] ∧ name ≠ "."

/-- The text of a path; a point for the working directory. -/
def text (p : Path) : Text :=
  let body := p.root.text ++ Text.joined "/" p.parts
  if body.isEmpty then "." else body

/-- The path of something in a directory. -/
def child (p : Path) (name : Text) : Path := { p with parts := p.parts ++ [name] }

/-- The last name. -/
def name (p : Path) : Text := p.parts.getLast?.getD []

/-- The end of the last name from its last point on. A point at its start or at its end does not
count. -/
def suffix (p : Path) : Text :=
  let extension := (p.name.reverse.takeWhile (· ≠ .char '.')).reverse
  if extension = [] ∨ p.name.length ≤ extension.length + 1 then [] else .char '.' :: extension

/-- The path from a directory on, if it leads through that directory by name. -/
def relativeTo? (p base : Path) : Option Path :=
  if p.root = base.root ∧ base.parts.isPrefixOf p.parts then
    some { parts := p.parts.drop base.parts.length }
  else none

/-- What paths are ordered by: their root, if they have one, and their names. -/
def orderKey (p : Path) : List Text :=
  if p.root = .workingDirectory then p.parts else p.root.text :: p.parts

/-- The order of paths. -/
def le (p q : Path) : Bool := Text.listLe p.orderKey q.orderKey

end Path

end EntityGraph.Files
