import EntityGraph.Model.Project

/-!
# Entity graphs

A graph is a project whose entities have an identity of their own. The entities lie in a pool, and
the modules hold their numbers there. A number may occur under several names, and an entity whose
last name is taken away stays in the pool, detached; so two entities are the same exactly when their
numbers are, whatever they say.
-/

namespace EntityGraph

/-- The identity of an entity: its place in the pool of its graph. -/
structure EntityId where
  index : Nat
  deriving DecidableEq, Repr, Inhabited

/-- A project over a pool of entities. -/
structure Graph where
  project : Project EntityId := {}
  pool : List Entity := []
  deriving Inhabited, Repr

namespace Graph

/-- The entity of an identity; a number beyond the pool stands for the blank entity. -/
def entity (g : Graph) (id : EntityId) : Entity := g.pool.getD id.index {}

/-! ## From projects to graphs and back -/

/-- Numbers the entities of a table from a number on. -/
def numberEntities (start : Nat) : Table Entity → Table EntityId
  | [] => []
  | (name, _) :: rest => (name, ⟨start⟩) :: numberEntities (start + 1) rest

/-- Numbers the entities of a module from a number on. -/
def numberModule (start : Nat) (m : Module Entity) : Module EntityId where
  entities := numberEntities start m.entities
  enumerations := m.enumerations

/-- Numbers the entities of all modules, in document order. -/
def numberModules (start : Nat) : Table (Module Entity) → Table (Module EntityId)
  | [] => []
  | (name, m) :: rest =>
    (name, numberModule start m) :: numberModules (start + m.entities.length) rest

/-- The graph of a project: every entity gets an identity, in document order. -/
def ofProject (p : Project Entity) (start : Nat := 0) : Graph where
  project :=
    { name := p.name
      version := p.version
      targetPackage := p.targetPackage
      modules := numberModules start p.modules }
  pool := p.flatEntities.map (·.2)

/-- The project that a graph says, with the entities in the place of their identities. -/
def toProject (g : Graph) : Project Entity := g.project.map g.entity

/-! ## Names -/

/-- The first path of an identity in document order; a detached entity has none. -/
def pathOf? (g : Graph) (id : EntityId) : Option ElementPath :=
  (g.project.flatEntities.find? fun e ↦ e.2 = id).map (·.1)

/-- The module of a name. -/
def findModule (g : Graph) (name : Value) : Except Fault (Option (Module EntityId)) :=
  g.project.modules.get name

/-- The entity of a name in a module of a name; unlike the parts of a path, either may be null. -/
def entityNamed (g : Graph) (moduleName name : Value) : Except Fault (Option EntityId) := do
  match ← g.findModule moduleName with
  | none => return none
  | some m => m.entities.get name

/-- The enumeration of a name in a module of a name. -/
def enumerationNamed (g : Graph) (moduleName name : Value) :
    Except Fault (Option Enumeration) := do
  match ← g.findModule moduleName with
  | none => return none
  | some m => m.enumerations.get name

end Graph

end EntityGraph
