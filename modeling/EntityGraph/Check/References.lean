import EntityGraph.Check.Issue
import EntityGraph.Graph.Inheritance

/-!
# References

The paths of a graph that lead nowhere, parents that are enumerations, and inheritance that comes
back to itself. A path that leads nowhere is a valid state of a graph; it is reported for whoever
uses the graph next.
-/

namespace EntityGraph

namespace References

/-- The token of a name in a pointer. Only texts have one. -/
def token (name : Value) : Except Fault Text :=
  match name with
  | .str t => .ok t
  | v => .error (.notAText v.kind)

/-- The pointer of an entity. -/
def entityPointer (path : ElementPath) : Text :=
  Pointer.join (Pointer.join (Pointer.join "/modules" path.moduleName.plain) "entities")
    path.name.plain

/-- An issue about paths, which have to have texts. -/
def issue (paths : List ElementPath) (finding : Finding) (pointer : Text) :
    Except Fault (List Issue) := do
  Fault.requireWritable (paths.all ElementPath.isWritable)
  return [⟨finding, pointer⟩]

variable (p : Project EntityId)

/-- What is wrong with a parent path. -/
def ofParent (owner : ElementPath) (pointer : Text) (parent : Option ElementPath) :
    Except Fault (List Issue) := do
  let some path := parent | return []
  match ← p.findEntity path with
  | some _ => return []
  | none =>
    let finding := match ← p.findEnumeration path with
      | some _ => Finding.parentIsEnumeration path owner
      | none => Finding.parentUnresolved path owner
    issue [path, owner] finding (Pointer.join pointer "parent")

/-- What is wrong with a response path. -/
def ofResponse (owner : ElementPath) (pointer : Text) (response : Option ElementPath) :
    Except Fault (List Issue) := do
  let some path := response | return []
  match ← p.findEntity path with
  | some _ => return []
  | none => issue [path, owner] (.responseUnresolved path owner) (Pointer.join pointer "response")

/-- What is wrong with the path in a type, inside whatever lists. -/
def ofType (pointer : Text) (t : FieldType) : Except Fault (List Issue) :=
  match t.core with
  | .object path => do
    match ← p.findEntity path with
    | some _ => return []
    | none => issue [path] (.entityUnresolved path) pointer
  | .enumeration path => do
    match ← p.findEnumeration path with
    | some _ => return []
    | none => issue [path] (.enumerationUnresolved path) pointer
  | _ => return []

/-- What is wrong with the types of a table of fields. -/
def ofFields (pointer : Text) : Table Field → Except Fault (List Issue)
  | [] => return []
  | (name, f) :: rest => do
    let here := Pointer.join pointer (← token name)
    let found ← ofType p here f.type
    return found ++ (← ofFields pointer rest)

/-- Everything that is wrong with the paths of one entity. -/
def ofPaths (path : ElementPath) (e : Entity) : Except Fault (List Issue) := do
  Fault.requireWritable path.isWritable
  let pointer := entityPointer path
  let parent ← ofParent p path pointer e.parent
  let response ← ofResponse p path pointer e.response
  let fields ← ofFields p (Pointer.join pointer "fieldsLocal") e.fields
  let bindings ← ofFields p (Pointer.join pointer "genericMap") e.bindings
  return parent ++ response ++ fields ++ bindings

/-- What is wrong with the inheritance of an entity: a walk that comes back to an entity it has
visited. Any other fault of the walk is passed on. -/
def ofInheritance (g : Graph) (path : ElementPath) (id : EntityId) : Query (List Issue) :=
  let walk := (g.ancestors (some g.project) id).outcome
  ExceptT.mk <|
    match walk.value with
    | .ok _ => ⟨.ok [], walk.notices⟩
    | .error (.cyclicInheritance followed) =>
      ⟨.ok [⟨.cyclicInheritance followed, Pointer.join (entityPointer path) "parent"⟩],
        walk.notices ++ [.walkFailed path followed]⟩
    | .error fault => ⟨.error fault, walk.notices⟩

/-- The issues of some entities, one entity after the other. -/
def ofEntities (g : Graph) : List (ElementPath × EntityId) → Query (List Issue)
  | [] => pure []
  | (path, id) :: rest => do
    let paths ← Query.ofExcept (ofPaths g.project path (g.entity id))
    let inheritance ← ofInheritance g path id
    return paths ++ inheritance ++ (← ofEntities g rest)

end References

/-- The reference issues of a graph, entity by entity in document order. -/
def referenceIssues (g : Graph) : Query (List Issue) :=
  References.ofEntities g g.project.flatEntities

end EntityGraph
