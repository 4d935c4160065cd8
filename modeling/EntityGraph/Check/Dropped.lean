import EntityGraph.Check.Issue
import EntityGraph.Model.Project

/-!
# Dropped nodes

The nodes that loading a project would leave out, each with the reason. The loaders themselves are
asked about every node, from the modules downwards, so that the report says what the loaded project
will hold; below a node that is left out nothing further is reported. The notices of the loaders are
kept as well.
-/

namespace EntityGraph

namespace Dropped

/-- Why a node with these required keys does not load. -/
def reason (required : List Text) (v : Value) : DropReason :=
  if v.isMap then
    match v.missing required with
    | [] => .unsupported
    | keys => .missing keys
  else .notAMapping

/-- The dropped entries among some, and what `inside` reports for those that load. -/
def inEntries {α : Type} (kind : NodeKind) (required : List Text)
    (load : Value → Query (Option α)) (path : Text) (inside : Value → Text → Query (List Issue)) :
    List (Value × Value) → Query (List Issue)
  | [] => pure []
  | (name, v) :: rest => do
    let here := Pointer.join path (← Query.ofExcept name.written)
    let found ←
      match ← load v with
      | none => pure [⟨.dropped kind name (reason required v), here⟩]
      | some _ => inside v here
    return found ++ (← inEntries kind required load path inside rest)

/-- The same for the entries of a value; one that is not a mapping has none. -/
def inChildren {α : Type} (kind : NodeKind) (required : List Text)
    (load : Value → Query (Option α)) (path : Text) (inside : Value → Text → Query (List Issue))
    (v : Value) : Query (List Issue) :=
  match v with
  | .map entries => inEntries kind required load path inside entries
  | _ => pure []

/-- Nothing is reported below. -/
def leaf (_ : Value) (_ : Text) : Query (List Issue) := pure []

/-- The dropped local fields and generic bindings of an entity that loads. -/
def inEntity (v : Value) (path : Text) : Query (List Issue) := do
  let fields ← inChildren .field Field.requiredKeys Field.load (Pointer.join path "fieldsLocal")
    leaf (v.field "fieldsLocal")
  let bindings ← inChildren .genericBinding Field.requiredKeys Field.load
    (Pointer.join path "genericMap") leaf (v.field "genericMap")
  return fields ++ bindings

/-- The dropped items of an enumeration that loads. -/
def inEnumeration (v : Value) (path : Text) : Query (List Issue) :=
  inChildren .enumItem EnumItem.requiredKeys EnumItem.load (Pointer.join path "enumMap") leaf
    (v.field "enumMap")

/-- The dropped nodes of a module that loads. -/
def inModule (v : Value) (path : Text) : Query (List Issue) := do
  let entities ← inChildren .entity Entity.requiredKeys Entity.load
    (Pointer.join path "entities") inEntity (v.field "entities")
  let enumerations ← inChildren .enumeration Enumeration.requiredKeys Enumeration.load
    (Pointer.join path "enums") inEnumeration (v.field "enums")
  return entities ++ enumerations

end Dropped

/-- The nodes of a document that loading would leave out. If there is no project at all, that is the
only issue, and an error. -/
def droppedIssues (document : Value) : Query (List Issue) := do
  match ← Project.load document with
  | none => return [⟨.notAProject (Dropped.reason Project.requiredKeys document), []⟩]
  | some _ =>
    Dropped.inChildren .moduleNode Module.requiredKeys Module.load "/modules" Dropped.inModule
      (document.field "modules")

end EntityGraph
