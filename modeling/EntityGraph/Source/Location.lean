import EntityGraph.Files.Path
import EntityGraph.Pointer
import EntityGraph.Source.Map

/-!
# Source locations

Where a node of a document is to be found: its file, its pointer, and the position of the nearest
node around it that a source map knows. So a key that is missing is found at the mapping that should
have it.
-/

namespace EntityGraph.Source

/-- Where a node is to be found, as far as that is known. -/
structure Location where
  file : Option Files.Path := none
  pointer : Option Text := none
  position : Position := {}
  deriving DecidableEq, Repr

/-- The position under a pointer or under the nearest one around it that has any. -/
def Map.nearest? (m : Map) (pointer : Text) : Option Position :=
  (Pointer.withEnclosing pointer).findSome? m.position?

/-- The location of a node. -/
def Map.locate (m : Map) (pointer : Option Text) (file : Option Files.Path) : Location :=
  { file, pointer, position := (pointer.bind m.nearest?).getD {} }

namespace Location

/-- The text of a file, from a directory on if it lies there. -/
def shownFile (base : Option Files.Path) (file : Files.Path) : Text :=
  ((base.bind file.relativeTo?).getD file).text

/-- The text of a location to be put after a message; nothing if nothing is known. -/
def text (base : Option Files.Path) (l : Location) : Text :=
  let file : List Text := match l.file with
    | none => []
    | some f =>
      let place := match l.position.line, l.position.column with
        | some line, some column => ":" ++ toString line ++ ":" ++ toString column
        | some line, none => ":" ++ toString line
        | none, _ => ""
      ["source= " ++ shownFile base f ++ place ++ " "]
  let pointer : List Text := match l.pointer with
    | none | some [] => []
    | some p => ["yaml_path=" ++ p]
  let parts := file ++ pointer
  if parts.isEmpty then [] else " (" ++ Text.joined " " parts ++ ")"

end Location

end EntityGraph.Source
