import EntityGraph.Notice

/-!
# Entries of documents

Writing the optional entries of a node, and loading the named children of a node one by one. A child
that does not load costs only itself: it is dropped with a notice and its siblings stay.
-/

namespace EntityGraph

/-- An entry under a key, left out where the value is null. -/
def optionalEntry (key : Text) (v : Value) : List (Value × Value) :=
  if v.isNull then [] else [(.str key, v)]

/-- An entry under a key, left out where there is nothing. -/
def someEntry (key : Text) : Option Value → List (Value × Value)
  | none => []
  | some v => [(.str key, v)]

/-! ## Named children -/

/-- Loads every entry of a mapping. An entry that does not load is dropped and noticed; its siblings
stay. -/
def loadEntries {α : Type} (kind : NodeKind) (load : Value → Query (Option α)) :
    List (Value × Value) → Query (List (Value × α))
  | [] => pure []
  | (name, v) :: rest => do
    match ← load v with
    | none => do
      Query.note (.dropped kind name)
      loadEntries kind load rest
    | some item => return (name, item) :: (← loadEntries kind load rest)

/-- Loads the entries of a value; a value that is not a mapping has none, and that is noticed. -/
def loadChildren {α : Type} (kind : NodeKind) (load : Value → Query (Option α)) :
    Value → Query (List (Value × α))
  | .map entries => loadEntries kind load entries
  | v => do
    Query.note (.notAMapping kind v.kind)
    return []

end EntityGraph
