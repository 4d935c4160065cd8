import EntityGraph.Model.Entity
import EntityGraph.Model.Enumeration

/-!
# Modules and projects

A project is a table of modules, a module a table of entities beside a table of enumerations. Both
leave open what stands for an entity: a project that was just loaded holds the entities themselves,
one that is a graph holds the numbers of entities in a pool, so that one entity can go by several
names.
-/

namespace EntityGraph

/-- A named group of entities and enumerations. -/
structure Module (ε : Type) where
  entities : Table ε := []
  enumerations : Table Enumeration := []
  deriving Inhabited, Repr

/-- The owner of all modules. -/
structure Project (ε : Type) where
  name : Value := .str ""
  version : Value := .str ""
  /-- The package for generated code. -/
  targetPackage : Value := .str ""
  modules : Table (Module ε) := []
  deriving Inhabited, Repr

variable {ε δ : Type}

namespace Module

/-- The keys without which a module does not load. -/
def requiredKeys : List Text := ["entities"]

/-- The same module with other entities under the same names. -/
def map (f : ε → δ) (m : Module ε) : Module δ where
  entities := m.entities.mapItems f
  enumerations := m.enumerations

def toDocument (m : Module Entity) : Value :=
  .map [(.str "entities", .map (m.entities.mapItems Entity.toDocument)),
    (.str "enums", .map (m.enumerations.mapItems Enumeration.toDocument))]

/-- Enumerations are optional. -/
def load (v : Value) : Query (Option (Module Entity)) :=
  if v.missing requiredKeys ≠ [] then pure none
  else do
    let entities ← loadChildren .entity Entity.load (v.field "entities")
    let enumerations ←
      if (v.field "enums").isNull then pure []
      else loadChildren .enumeration Enumeration.load (v.field "enums")
    return some { entities, enumerations }

/-- Equality as parts of larger nodes, given what it is for entities to be the same. -/
def same (sameEntity : ε → ε → Bool) (m n : Module ε) : Bool :=
  m.entities.same sameEntity n.entities && m.enumerations.same Enumeration.same n.enumerations

end Module

namespace Project

/-- The keys without which a project does not load. -/
def requiredKeys : List Text := ["modules"]

/-- The same project with other entities under the same names. -/
def map (f : ε → δ) (p : Project ε) : Project δ where
  name := p.name
  version := p.version
  targetPackage := p.targetPackage
  modules := p.modules.mapItems (Module.map f)

/-- Every entity with its path, in document order. -/
def flatEntities (p : Project ε) : List (ElementPath × ε) :=
  p.modules.flatMap fun m ↦ m.2.entities.map fun e ↦ (⟨m.1, e.1⟩, e.2)

/-- Every enumeration with its path, in document order. -/
def flatEnumerations (p : Project ε) : List (ElementPath × Enumeration) :=
  p.modules.flatMap fun m ↦ m.2.enumerations.map fun e ↦ (⟨m.1, e.1⟩, e.2)

/-! ## Resolution -/

/-- The entity that a path leads to: none if a part of the path is not set, or if there is nothing
under its name. -/
def findEntity (p : Project ε) (path : ElementPath) : Except Fault (Option ε) :=
  if path.isComplete then do
    match ← p.modules.get path.moduleName with
    | none => return none
    | some m => m.entities.get path.name
  else return none

/-- The enumeration that a path leads to. -/
def findEnumeration (p : Project ε) (path : ElementPath) : Except Fault (Option Enumeration) :=
  if path.isComplete then do
    match ← p.modules.get path.moduleName with
    | none => return none
    | some m => m.enumerations.get path.name
  else return none

/-! ## Documents -/

def toDocument (p : Project Entity) : Value :=
  .map [(.str "name", p.name), (.str "version", p.version),
    (.str "targetPackage", p.targetPackage),
    (.str "modules", .map (p.modules.mapItems Module.toDocument))]

/-- A value that counts as absent is the empty text. -/
def label (v : Value) : Value := if v.isBlank then .str "" else v

/-- The project that a document describes; malformed nodes in it are dropped. -/
def load (v : Value) : Query (Option (Project Entity)) :=
  if v.missing requiredKeys ≠ [] then pure none
  else do
    let modules ← loadChildren .moduleNode Module.load (v.field "modules")
    let name := label (v.field "name")
    Query.note (.projectLoaded name modules.length)
    return some
      { name, modules
        version := label (v.field "version")
        targetPackage := label (v.field "targetPackage") }

/-- Equality of projects, given what it is for entities to be the same. -/
def same (sameEntity : ε → ε → Bool) (p q : Project ε) : Bool :=
  p.name.same q.name && p.version.same q.version && p.targetPackage.same q.targetPackage &&
    p.modules.same (Module.same sameEntity) q.modules

end Project

end EntityGraph
