import EntityGraph.Graph.Basic
import Mathlib.Data.List.Basic

/-!
# Numbering entities

The graph of a project gives every entity a number, in document order, and keeps the entities in a
pool in the same order. So the number of an entity leads back to it, and the graph says what the
project says.
-/

namespace EntityGraph

theorem Project.flatEntities_map {ε δ : Type} (f : ε → δ) (p : Project ε) :
    (p.map f).flatEntities = p.flatEntities.map fun e ↦ (e.1, f e.2) := by
  have hmodule (m : Value × Module ε) :
      ((m.2.map f).entities.map fun e ↦ ((⟨m.1, e.1⟩ : ElementPath), e.2)) =
        (m.2.entities.map fun e ↦ ((⟨m.1, e.1⟩ : ElementPath), e.2)).map fun e ↦ (e.1, f e.2) := by
    rw [Module.map, Table.mapItems, List.map_map, List.map_map]
    rfl
  rw [flatEntities, flatEntities, Project.map, Table.mapItems, List.flatMap_map, List.map_flatMap]
  exact List.flatMap_congr fun m _ ↦ hmodule m

namespace Graph

variable {pool before after : List Entity}

/-- The entities of a table, numbered from where they begin in a pool, are found in the pool. -/
theorem mapItems_numberEntities {t : Table Entity}
    (h : pool = before ++ t.map (·.2) ++ after) :
    (numberEntities before.length t).mapItems (fun id ↦ pool.getD id.index {}) = t := by
  induction t generalizing before with
  | nil => rfl
  | cons e t ih =>
    obtain ⟨name, entity⟩ := e
    have hfirst : pool.getD before.length {} = entity := by
      rw [h]
      simp [List.getD]
    have hrest : pool = before ++ [entity] ++ t.map (·.2) ++ after := by
      rw [h]
      simp
    have hlater := ih hrest
    rw [List.length_append, List.length_singleton] at hlater
    rw [numberEntities, Table.mapItems, List.map_cons, hfirst]
    exact congrArg ((name, entity) :: ·) hlater

/-- The same for the modules of a project: the entities of one come after those of the other. -/
theorem mapItems_numberModules {ms : Table (Module Entity)}
    (h : pool = before ++ (ms.flatMap fun m ↦ m.2.entities.map (·.2)) ++ after) :
    (numberModules before.length ms).mapItems (Module.map fun id ↦ pool.getD id.index {}) = ms := by
  induction ms generalizing before with
  | nil => rfl
  | cons m ms ih =>
    obtain ⟨name, m⟩ := m
    have hhere : pool = before ++ m.entities.map (·.2) ++
        ((ms.flatMap fun m ↦ m.2.entities.map (·.2)) ++ after) := by
      rw [h, List.flatMap_cons]
      simp only [List.append_assoc]
    -- The next module is numbered from where the entities of this one end.
    have hlater := ih (hhere.trans (List.append_assoc _ _ _).symm)
    have hfirst : (numberModule before.length m).map (fun id ↦ pool.getD id.index {}) = m := by
      rw [Module.map, numberModule, mapItems_numberEntities hhere]
    rw [List.length_append, List.length_map] at hlater
    rw [numberModules, Table.mapItems, List.map_cons, hfirst]
    exact congrArg ((name, m) :: ·) hlater

/-- The graph of a project says the project. -/
theorem toProject_ofProject (p : Project Entity) : (ofProject p).toProject = p := by
  have hpool : p.flatEntities.map (·.2) = p.modules.flatMap fun m ↦ m.2.entities.map (·.2) := by
    rw [Project.flatEntities, List.map_flatMap]
    refine List.flatMap_congr fun m _ ↦ ?_
    rw [List.map_map]
    rfl
  have hmodules := @mapItems_numberModules _ [] [] _ (hpool.trans (List.append_nil _).symm)
  rw [toProject, Project.map]
  exact congrArg (fun ms ↦ { p with modules := ms }) hmodules

/-- The entities of the graph of a project are those of the project, in their order. -/
theorem flatEntities_ofProject (p : Project Entity) :
    ((ofProject p).project.flatEntities.map fun e ↦ (e.1, (ofProject p).entity e.2)) =
      p.flatEntities := by
  rw [← Project.flatEntities_map]
  exact congrArg Project.flatEntities (toProject_ofProject p)

/-- An entity of the graph of a project is an entity of the project, at the same path. -/
theorem mem_flatEntities_of_mem_ofProject {p : Project Entity}
    {entry : ElementPath × EntityId}
    (h : entry ∈ (ofProject p).project.flatEntities) :
    (entry.1, (ofProject p).entity entry.2) ∈ p.flatEntities := by
  rw [← flatEntities_ofProject]
  exact List.mem_map_of_mem (f := fun e ↦ (e.1, (ofProject p).entity e.2)) h

end Graph

end EntityGraph
