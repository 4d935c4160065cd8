import EntityGraph.Graph.Basic

/-!
# Changes of a graph

Adding, replacing and taking away modules, entities and enumerations, giving an entity a further
name, and changing an entity in place. A change that cannot be made answers with nothing: its module
is not there, or what it would take away is not. An entity that is replaced stays in the pool.
-/

namespace EntityGraph.Graph

/-- The graph with another table of modules. -/
def withModules (g : Graph) (modules : Table (Module EntityId)) : Graph :=
  { g with project := { g.project with modules } }

/-- Changes the module of a name. -/
def changeModule (g : Graph) (name : Value)
    (change : Module EntityId → Except Fault (Option (Module EntityId))) :
    Except Fault (Option Graph) := do
  match ← g.findModule name with
  | none => return none
  | some m =>
    match ← change m with
    | none => return none
    | some m => return some (g.withModules (g.project.modules.insert name m))

/-- The table without a name that has to be there. Nothing is looked up in a table without names. -/
def eraseFrom {α : Type} (t : Table α) (name : Value) : Except Fault (Option (Table α)) := do
  if t.isEmpty then return none
  match ← t.get name with
  | none => return none
  | some _ => return some (t.erase name)

/-! ## Modules -/

/-- Puts a module under a name; its entities are new ones. -/
def putModule (g : Graph) (name : Value) (m : Module Entity) : Except Fault Graph := do
  let name ← Table.checkName name
  let g := g.withModules (g.project.modules.insert name (numberModule g.pool.length m))
  return { g with pool := g.pool ++ m.entities.map (·.2) }

def removeModule (g : Graph) (name : Value) : Except Fault (Option Graph) := do
  return (← eraseFrom g.project.modules name).map g.withModules

/-! ## Entities and enumerations -/

/-- Gives an identity a name in a module. -/
def nameEntity (g : Graph) (moduleName name : Value) (id : EntityId) :
    Except Fault (Option Graph) :=
  g.changeModule moduleName fun m ↦ do
    let name ← Table.checkName name
    return some { m with entities := m.entities.insert name id }

/-- Puts a new entity under a name in a module. -/
def putEntity (g : Graph) (moduleName name : Value) (e : Entity) : Except Fault (Option Graph) := do
  let id : EntityId := ⟨g.pool.length⟩
  return (← g.nameEntity moduleName name id).map fun g ↦ { g with pool := g.pool ++ [e] }

def removeEntity (g : Graph) (moduleName name : Value) : Except Fault (Option Graph) :=
  g.changeModule moduleName fun m ↦ do
    return (← eraseFrom m.entities name).map fun t ↦ { m with entities := t }

def putEnumeration (g : Graph) (moduleName name : Value) (e : Enumeration) :
    Except Fault (Option Graph) :=
  g.changeModule moduleName fun m ↦ do
    let name ← Table.checkName name
    return some { m with enumerations := m.enumerations.insert name e }

def removeEnumeration (g : Graph) (moduleName name : Value) : Except Fault (Option Graph) :=
  g.changeModule moduleName fun m ↦ do
    return (← eraseFrom m.enumerations name).map fun t ↦ { m with enumerations := t }

/-! ## In place -/

/-- Changes an entity under all of its names. -/
def changeEntity (g : Graph) (id : EntityId) (change : Entity → Entity) : Graph :=
  { g with pool := g.pool.modify id.index change }

def setParent (g : Graph) (id : EntityId) (path : Option ElementPath) : Graph :=
  g.changeEntity id fun e ↦ { e with parent := path }

def setResponse (g : Graph) (id : EntityId) (path : Option ElementPath) : Graph :=
  g.changeEntity id fun e ↦ { e with response := path }

def putField (g : Graph) (id : EntityId) (name : Value) (f : Field) : Except Fault Graph := do
  let name ← Table.checkName name
  return g.changeEntity id fun e ↦ { e with fields := e.fields.insert name f }

def putBinding (g : Graph) (id : EntityId) (name : Value) (f : Field) : Except Fault Graph := do
  let name ← Table.checkName name
  return g.changeEntity id fun e ↦ { e with bindings := e.bindings.insert name f }

def removeField (g : Graph) (id : EntityId) (name : Value) : Except Fault (Option Graph) := do
  return (← eraseFrom (g.entity id).fields name).map fun t ↦
    g.changeEntity id fun e ↦ { e with fields := t }

def removeBinding (g : Graph) (id : EntityId) (name : Value) : Except Fault (Option Graph) := do
  return (← eraseFrom (g.entity id).bindings name).map fun t ↦
    g.changeEntity id fun e ↦ { e with bindings := t }

end EntityGraph.Graph
