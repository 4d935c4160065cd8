import EntityGraph.Graph.Basic

/-!
# Inheritance

The walk from an entity to its ancestors, and what an entity has by inheritance. The walk follows
parent paths until an entity has none or its path leads nowhere. It keeps the entities it has
visited, and a path that leads back to one of them is a fault; so the walk ends, because every
further step uses up one of the entities that the project names.
-/

namespace EntityGraph

/-- The identities that a project names. -/
def Project.identities (p : Project EntityId) : List EntityId := p.flatEntities.map (·.2)

/-- An entity that a table answers with is in the table. -/
theorem Table.mem_of_get {α : Type} {t : Table α} {name : Value} {item : α}
    (h : t.get name = .ok (some item)) : ∃ n, (n, item) ∈ t := by
  unfold Table.get at h
  split at h
  · simp only [Except.ok.injEq, Table.find?, Option.map_eq_some_iff] at h
    obtain ⟨⟨n, i⟩, hfind, rfl⟩ := h
    exact ⟨n, List.mem_of_find?_eq_some hfind⟩
  · cases h

/-- An entity that a path leads to is one that the project names. -/
theorem Project.mem_identities_of_findEntity {p : Project EntityId} {path : ElementPath}
    {id : EntityId} (h : p.findEntity path = .ok (some id)) : id ∈ p.identities := by
  unfold Project.findEntity at h
  split at h
  · cases hm : p.modules.get path.moduleName with
    | error e => simp [hm, bind, Except.bind] at h
    | ok found =>
      cases found with
      | none => simp [hm, bind, Except.bind, pure, Except.pure] at h
      | some m =>
        simp only [hm, bind, Except.bind] at h
        obtain ⟨mn, hmem⟩ := Table.mem_of_get hm
        obtain ⟨en, hent⟩ := Table.mem_of_get h
        simp only [identities, flatEntities, List.mem_map, List.mem_flatMap]
        exact ⟨(⟨mn, en⟩, id), ⟨(mn, m), hmem, (en, id), hent, rfl⟩, rfl⟩
  · cases h

namespace Graph

/-- Follows a path in a project that may be absent; without one, no path leads anywhere. -/
def follow (project : Option (Project EntityId)) (path : ElementPath) :
    Except Fault (Option EntityId) :=
  match project with
  | none => .ok none
  | some p => p.findEntity path

/-- The identities that a project that may be absent names. -/
def named (project : Option (Project EntityId)) : List EntityId :=
  match project with
  | none => []
  | some p => p.identities

theorem mem_named_of_follow {project : Option (Project EntityId)} {path : ElementPath}
    {id : EntityId} (h : follow project path = .ok (some id)) : id ∈ named project := by
  cases project with
  | none => cases h
  | some p => exact Project.mem_identities_of_findEntity h

/-- The identities of a list that are still to be visited. -/
def unvisited (ids visited : List EntityId) : List EntityId :=
  ids.filter fun i ↦ !visited.contains i

/-- Visiting an identity leaves no more of a list. -/
theorem length_unvisited_le (ids visited : List EntityId) (id : EntityId) :
    (unvisited ids (id :: visited)).length ≤ (unvisited ids visited).length := by
  rw [unvisited, unvisited, ← List.countP_eq_length_filter, ← List.countP_eq_length_filter]
  refine List.countP_mono_left fun i _ hi ↦ ?_
  rw [List.contains_cons, Bool.not_or, Bool.and_eq_true] at hi
  exact hi.2

/-- Visiting an identity of the list leaves fewer. -/
theorem length_unvisited_lt {ids visited : List EntityId} {id : EntityId} (hmem : id ∈ ids)
    (hnew : id ∉ visited) :
    (unvisited ids (id :: visited)).length < (unvisited ids visited).length := by
  obtain ⟨before, after, rfl⟩ := List.append_of_mem hmem
  have hsplit (visited : List EntityId) : unvisited (before ++ id :: after) visited =
      unvisited before visited ++ (unvisited [id] visited ++ unvisited after visited) := by
    rw [unvisited, unvisited, unvisited, unvisited, ← List.filter_append, ← List.filter_append]
    rfl
  have hold : unvisited [id] visited = [id] := by simp [unvisited, hnew]
  have hone : unvisited [id] (id :: visited) = [] := by simp [unvisited]
  have hbefore := length_unvisited_le before visited id
  have hafter := length_unvisited_le after visited id
  rw [hsplit, hsplit, hold, hone]
  simp only [List.length_append, List.length_cons, List.length_nil]
  omega

/-- The walk upwards from `current`. `below` are the entities visited before it, the last one first,
and `followed` the paths that were followed, the first one first. The answer begins with the eldest
ancestor. -/
def climb (g : Graph) (project : Option (Project EntityId)) (current : EntityId)
    (below : List EntityId) (followed : List ElementPath) : Query (List EntityId) :=
  match (g.entity current).parent with
  | none => pure (current :: below)
  | some path =>
    match _found : follow project path with
    | .error fault => throw fault
    | .ok none => do
      Query.note (.parentUnresolved path)
      return current :: below
    | .ok (some parent) =>
      if _fresh : parent ∈ current :: below then
        throw (.cyclic (followed ++ [path]))
      else climb g project parent (current :: below) (followed ++ [path])
termination_by (unvisited (named project) (current :: below)).length
decreasing_by exact length_unvisited_lt (mem_named_of_follow _found) _fresh

/-- The inheritance chain of an entity, its eldest ancestor first and the entity itself last. -/
def ancestors (g : Graph) (project : Option (Project EntityId)) (id : EntityId) :
    Query (List EntityId) :=
  g.climb project id [] []

/-! ## Visits -/

/-- Visits the inheritance chain of an entity, its eldest ancestor first and the entity itself
last. -/
def visitAncestors {σ : Type} (g : Graph) (project : Option (Project EntityId)) (id : EntityId)
    (visit : EntityId → Visit σ Unit) : Visit σ Unit := do
  let chain ← Visit.ofQuery (g.ancestors project id)
  chain.forM visit

/-! ## Inherited members -/

/-- The names of a list that a table of bindings does not have. -/
def unbound (bindings : Table Field) : List Value → Except Fault (List Value)
  | [] => return []
  | name :: rest => do
    match ← bindings.get name with
    | some _ => unbound bindings rest
    | none => return name :: (← unbound bindings rest)

/-- The parameters that are open after each entity of a chain in turn: it adds its own, and binds
those it has a binding for. -/
def openAfter (g : Graph) (names : List Value) : List EntityId → Except Fault (List Value)
  | [] => return names
  | id :: rest => do
    let still ← unbound (g.entity id).bindings (names ++ (g.entity id).localGenerics)
    g.openAfter still rest

/-- The generic parameters still open at an entity, those of its ancestors first. Without a project
there are none. -/
def unsolvedGenerics (g : Graph) (project : Option (Project EntityId)) (id : EntityId) :
    Query (List Value) :=
  match project with
  | none => pure []
  | some p => do
    let chain ← g.ancestors (some p) id
    Query.ofExcept (g.openAfter [] chain)

/-- The fields of a chain, each over those of the entities before it. -/
def mergedFields (g : Graph) (chain : List EntityId) : Table Field :=
  chain.foldl
    (fun table id ↦ (g.entity id).fields.foldl (fun t f ↦ t.insert f.1 f.2) table) []

/-- The fields of an entity together with those it inherits; a field of a descendant stands in the
place of the ancestor's. -/
def allFields (g : Graph) (project : Option (Project EntityId)) (id : EntityId) :
    Query (Table Field) := do
  let chain ← g.ancestors project id
  return g.mergedFields chain

end Graph

end EntityGraph
