import EntityGraph.Text.Basic

/-!
# Source maps

Where the nodes of a document stand in its text: positions under pointers, in the order in which the
pointers were first seen. Lines and columns are counted from one, and either may be unknown. What
stands under a pointer may also be empty, and then it tells nothing at all.
-/

namespace EntityGraph.Source

/-- A line and a column, as far as they are known. -/
structure Position where
  line : Option Int := none
  column : Option Int := none
  deriving DecidableEq, Repr

/-- Positions under pointers; none where what stands under a pointer is empty. -/
abbrev Map := List (Text × Option Position)

namespace Map

/-- The position under a pointer. An empty one counts as none. -/
def position? (m : Map) (pointer : Text) : Option Position := (m.lookup pointer).join

/-- Puts a position under a pointer: in the place of the one it replaces, or last. -/
def insert (pointer : Text) (position : Position) : Map → Map
  | [] => [(pointer, some position)]
  | (p, q) :: rest =>
    if p = pointer then (p, some position) :: rest else (p, q) :: insert pointer position rest

/-- The map of positions as they were seen; of several under one pointer the last counts. -/
def ofList (seen : List (Text × Position)) : Map :=
  seen.foldl (fun m e ↦ m.insert e.1 e.2) []

end Map

end EntityGraph.Source
