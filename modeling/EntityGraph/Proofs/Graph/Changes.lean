import EntityGraph.Graph.Change
import EntityGraph.Proofs.Graph.Reordering
import EntityGraph.Proofs.Table.Updates

/-!
# Changes as data

The changes of what a graph names and of what its entities inherit from, as one type. `Effect` says
once what each of them does where it can be made; whatever is shown of a change is shown from there.

A graph that was made from a project is sound: its names are texts that differ, and every number
that it names is that of an entity in its pool. No change takes that away, so long as the names that
it brings are texts and it names no entity that there is not.
-/

namespace EntityGraph.Graph

/-- A change of what a graph names, or of a parent. -/
inductive Change where
  | setParent (id : EntityId) (path : Option ElementPath)
  | putEntity (moduleName name : Value) (e : Entity)
  /-- An entity of the graph gets a further name. -/
  | nameEntity (moduleName name : Value) (id : EntityId)
  | removeEntity (moduleName name : Value)
  | putEnumeration (moduleName name : Value) (e : Enumeration)
  | removeEnumeration (moduleName name : Value)
  | putModule (name : Value) (m : Module Entity)
  | removeModule (name : Value)

namespace Change

/-- Makes a change, if it can be made. -/
def apply (g : Graph) : Change → Except Fault (Option Graph)
  | .setParent id path => .ok (some (g.setParent id path))
  | .putEntity moduleName name e => g.putEntity moduleName name e
  | .nameEntity moduleName name id => g.nameEntity moduleName name id
  | .removeEntity moduleName name => g.removeEntity moduleName name
  | .putEnumeration moduleName name e => g.putEnumeration moduleName name e
  | .removeEnumeration moduleName name => g.removeEnumeration moduleName name
  | .putModule name m => do return some (← g.putModule name m)
  | .removeModule name => g.removeModule name

/-- Whether the names that a change brings are texts, and what it names is an entity of the
graph. -/
def IsProper (g : Graph) : Change → Prop
  | .putEntity _ name _ => name.isText = true
  | .nameEntity _ name id => name.isText = true ∧ id.index < g.pool.length
  | .putModule name m => name.isText = true ∧ m.entities.HasTextNames
  | _ => True

end Change

/-- The graph after a change; one that cannot be made leaves the graph as it is. -/
def after (g : Graph) (c : Change) : Graph :=
  match c.apply g with
  | .ok (some g') => g'
  | _ => g

/-- The graph after changes that are made one after another. -/
def afterAll (g : Graph) (cs : List Change) : Graph := cs.foldl after g

/-- Whether each of several changes is proper when its turn comes. -/
def AreProper (g : Graph) : List Change → Prop
  | [] => True
  | c :: cs => c.IsProper g ∧ AreProper (g.after c) cs

/-! ## What changes do -/

/-- The graph with another module under a name, and with further entities in its pool. -/
def withModule (g : Graph) (name : Value) (m : Module EntityId) (new : List Entity) : Graph :=
  { g.withModules (g.project.modules.insert name m) with pool := g.pool ++ new }

/-- What a graph becomes by a change that can be made. -/
inductive Effect (g : Graph) : Change → Graph → Prop where
  | setParent (id : EntityId) (path : Option ElementPath) :
    Effect g (.setParent id path) (g.setParent id path)
  | putEntity {moduleName : Value} {m : Module EntityId} (name : Value) (e : Entity) :
    g.project.modules.find? moduleName = some m →
      Effect g (.putEntity moduleName name e) (g.withModule moduleName
        { m with entities := m.entities.insert name ⟨g.pool.length⟩ } [e])
  | nameEntity {moduleName : Value} {m : Module EntityId} (name : Value) (id : EntityId) :
    g.project.modules.find? moduleName = some m →
      Effect g (.nameEntity moduleName name id) (g.withModule moduleName
        { m with entities := m.entities.insert name id } [])
  | removeEntity {moduleName : Value} {m : Module EntityId} (name : Value) :
    g.project.modules.find? moduleName = some m →
      Effect g (.removeEntity moduleName name) (g.withModule moduleName
        { m with entities := m.entities.erase name } [])
  | enumerations {moduleName : Value} {m : Module EntityId} {c : Change}
      (enumerations : Table Enumeration) :
    (∃ name e, c = .putEnumeration moduleName name e) ∨
        (∃ name, c = .removeEnumeration moduleName name) →
      g.project.modules.find? moduleName = some m →
        Effect g c (g.withModule moduleName { m with enumerations } [])
  | putModule (name : Value) (m : Module Entity) :
    Effect g (.putModule name m)
      (g.withModule name (numberModule g.pool.length m) (m.entities.map (·.2)))
  | removeModule (name : Value) :
    Effect g (.removeModule name) (g.withModules (g.project.modules.erase name))

variable {g g' : Graph}

/-- A change of a module finds the module and puts another in its place. -/
theorem changeModule_eq_ok {name : Value}
    {change : Module EntityId → Except Fault (Option (Module EntityId))}
    (h : g.changeModule name change = .ok (some g')) :
    ∃ m m', g.project.modules.find? name = some m ∧ change m = .ok (some m') ∧
      g' = g.withModule name m' [] := by
  obtain ⟨found, hfound, h⟩ := bind_eq_ok_iff.mp h
  cases found with
  | none => cases h
  | some m =>
    obtain ⟨changed, hchanged, h⟩ := bind_eq_ok_iff.mp h
    cases changed with
    | none => cases h
    | some m' =>
      cases h
      refine ⟨m, m', (Table.get_eq_ok_iff.mp hfound).2, hchanged, ?_⟩
      rw [withModule, List.append_nil]
      rfl

theorem eraseFrom_eq_ok {α : Type} {t t' : Table α} {name : Value}
    (h : eraseFrom t name = .ok (some t')) : t' = t.erase name := by
  rw [eraseFrom] at h
  split at h
  next => cases h
  next =>
    obtain ⟨-, -, h⟩ := bind_eq_ok_iff.mp h
    obtain ⟨found, -, h⟩ := bind_eq_ok_iff.mp h
    cases found with
    | none => cases h
    | some item =>
      cases h
      rfl

theorem checkName_eq_ok {name name' : Value} (h : Table.checkName name = .ok name') :
    name' = name := by
  rw [Table.checkName] at h
  split at h
  next =>
    cases h
    rfl
  next => cases h

theorem nameEntity_eq_ok {moduleName name : Value} {id : EntityId}
    (h : g.nameEntity moduleName name id = .ok (some g')) :
    ∃ m, g.project.modules.find? moduleName = some m ∧
      g' = g.withModule moduleName { m with entities := m.entities.insert name id } [] := by
  obtain ⟨m, m', hm, hchange, rfl⟩ := changeModule_eq_ok h
  obtain ⟨name', hname, hchange⟩ := bind_eq_ok_iff.mp hchange
  cases checkName_eq_ok hname
  cases hchange
  exact ⟨m, hm, rfl⟩

/-- A change that can be made has the effect of its kind. -/
theorem effect_of_apply {c : Change} (h : c.apply g = .ok (some g')) : g.Effect c g' := by
  cases c with
  | setParent id path =>
    cases h
    exact .setParent id path
  | putEntity moduleName name e =>
    obtain ⟨found, hnamed, h⟩ := bind_eq_ok_iff.mp h
    cases found with
    | none => cases h
    | some named =>
      cases h
      obtain ⟨m, hm, rfl⟩ := nameEntity_eq_ok hnamed
      have heffect := Effect.putEntity name e hm
      rw [withModule, List.append_nil]
      exact heffect
  | nameEntity moduleName name id =>
    obtain ⟨m, hm, rfl⟩ := nameEntity_eq_ok h
    exact .nameEntity name id hm
  | removeEntity moduleName name =>
    obtain ⟨m, m', hm, hchange, rfl⟩ := changeModule_eq_ok h
    obtain ⟨erased, herased, hchange⟩ := bind_eq_ok_iff.mp hchange
    cases erased with
    | none => cases hchange
    | some t =>
      cases hchange
      rw [eraseFrom_eq_ok herased]
      exact .removeEntity name hm
  | putEnumeration moduleName name e =>
    obtain ⟨m, m', hm, hchange, rfl⟩ := changeModule_eq_ok h
    obtain ⟨name', hname, hchange⟩ := bind_eq_ok_iff.mp hchange
    cases hchange
    exact .enumerations _ (Or.inl ⟨name, e, rfl⟩) hm
  | removeEnumeration moduleName name =>
    obtain ⟨m, m', hm, hchange, rfl⟩ := changeModule_eq_ok h
    obtain ⟨erased, -, hchange⟩ := bind_eq_ok_iff.mp hchange
    cases erased with
    | none => cases hchange
    | some t =>
      cases hchange
      exact .enumerations _ (Or.inr ⟨name, rfl⟩) hm
  | putModule name m =>
    obtain ⟨put, hput, h⟩ := bind_eq_ok_iff.mp h
    cases h
    obtain ⟨name', hname, hput⟩ := bind_eq_ok_iff.mp hput
    cases checkName_eq_ok hname
    cases hput
    exact .putModule name m
  | removeModule name =>
    obtain ⟨erased, herased, h⟩ := bind_eq_ok_iff.mp h
    cases erased with
    | none => cases h
    | some t =>
      cases h
      rw [eraseFrom_eq_ok herased]
      exact .removeModule name

/-- A change has its effect, or leaves the graph as it is. -/
theorem effect_after (g : Graph) (c : Change) : g.Effect c (g.after c) ∨ g.after c = g := by
  cases h : c.apply g with
  | error fault => exact Or.inr (by rw [after, h])
  | ok found =>
    cases found with
    | none => exact Or.inr (by rw [after, h])
    | some g' =>
      refine Or.inl ?_
      rw [after, h]
      exact effect_of_apply h

/-! ## Sound graphs -/

/-- The names of a graph are texts that differ, and what it names are entities in its pool. -/
structure IsSound (g : Graph) : Prop where
  names : g.project.HasTextNames
  pooled : ∀ m ∈ g.project.modules, ∀ e ∈ m.2.entities, e.2.index < g.pool.length

namespace IsSound

variable {name moduleName : Value} {m : Module EntityId} {new : List Entity}

theorem index_lt (h : g.IsSound) {id : EntityId} (hid : id ∈ g.project.identities) :
    id.index < g.pool.length := by
  obtain ⟨entry, hentry, rfl⟩ := List.mem_map.mp hid
  obtain ⟨m, hm, hentry⟩ := List.mem_flatMap.mp hentry
  obtain ⟨e, he, rfl⟩ := List.mem_map.mp hentry
  exact h.pooled m hm e he

/-- What is said of a module holds of one that is found. -/
theorem of_find? (h : g.IsSound) (hm : g.project.modules.find? moduleName = some m) :
    moduleName.isText = true ∧ m.entities.HasTextNames ∧
      ∀ e ∈ m.entities, e.2.index < g.pool.length := by
  have hmem := h.names.modules.find?_eq_some_iff.mp hm
  exact ⟨h.names.modules.isText_of_mem hmem, h.names.entities _ hmem, h.pooled _ hmem⟩

theorem withModule (h : g.IsSound) (hname : moduleName.isText = true)
    (hm : m.entities.HasTextNames)
    (hpooled : ∀ e ∈ m.entities, e.2.index < (g.pool ++ new).length) :
    (g.withModule moduleName m new).IsSound where
  names.modules := h.names.modules.insert hname
  names.entities := by
    intro n hn
    rcases (Table.mem_insert hn).2 with hsame | ⟨n', hn', hsame⟩
    · rw [hsame]
      exact hm
    · rw [← hsame]
      exact h.names.entities n' hn'
  pooled := by
    intro n hn e he
    rcases (Table.mem_insert hn).2 with hsame | ⟨n', hn', hsame⟩
    · rw [hsame] at he
      exact hpooled e he
    · rw [← hsame] at he
      exact Nat.lt_of_lt_of_le (h.pooled n' hn' e he) (List.length_append ▸ Nat.le_add_right _ _)

/-- A further name in a module keeps a graph sound. -/
theorem withModule_insert (h : g.IsSound) (hm : g.project.modules.find? moduleName = some m)
    (hname : name.isText = true) {id : EntityId} (hid : id.index < (g.pool ++ new).length) :
    (g.withModule moduleName { m with entities := m.entities.insert name id } new).IsSound := by
  obtain ⟨hmodule, hentities, hpooled⟩ := h.of_find? hm
  refine h.withModule hmodule (hentities.insert hname) fun e he ↦ ?_
  rcases (Table.mem_insert he).2 with hsame | ⟨e', he', hsame⟩
  · rw [hsame]
    exact hid
  · rw [← hsame]
    exact Nat.lt_of_lt_of_le (hpooled e' he') (List.length_append ▸ Nat.le_add_right _ _)

end IsSound

/-- The names that entities are numbered under are theirs, and the numbers follow each other. -/
theorem names_numberEntities (start : Nat) (t : Table Entity) :
    (numberEntities start t).names = t.names := by
  induction t generalizing start with
  | nil => rfl
  | cons e t ih => exact congrArg (e.1 :: ·) (ih (start + 1))

theorem index_lt_of_mem_numberEntities {start : Nat} {t : Table Entity} {e : Value × EntityId}
    (h : e ∈ numberEntities start t) : e.2.index < start + t.length := by
  have hid : e.2 ∈ (List.range' start t.length).map EntityId.mk := by
    rw [← identities_numberEntities]
    exact List.mem_map_of_mem h
  obtain ⟨i, hi, hindex⟩ := List.mem_map.mp hid
  rw [← hindex]
  exact (List.mem_range'_1.mp hi).2

theorem names_numberModules (start : Nat) (ms : Table (Module Entity)) :
    (numberModules start ms).names = ms.names := by
  induction ms generalizing start with
  | nil => rfl
  | cons m ms ih => exact congrArg (m.1 :: ·) (ih (start + m.2.entities.length))

/-- A numbered module has the names of a module of the table, and numbers up to the count of all. -/
theorem exists_of_mem_numberModules {start : Nat} {ms : Table (Module Entity)}
    {n : Value × Module EntityId} (h : n ∈ numberModules start ms) :
    ∃ m ∈ ms, n.2.entities.names = m.2.entities.names ∧
      ∀ e ∈ n.2.entities, e.2.index < start + (ms.flatMap fun m ↦ m.2.entities).length := by
  induction ms generalizing start with
  | nil => cases h
  | cons m ms ih =>
    obtain ⟨name, m⟩ := m
    rw [List.flatMap_cons, List.length_append]
    rcases List.mem_cons.mp h with rfl | h
    · refine ⟨_, List.mem_cons_self, names_numberEntities _ _, fun e he ↦ ?_⟩
      exact Nat.lt_of_lt_of_le (index_lt_of_mem_numberEntities he)
        (Nat.add_le_add_left (Nat.le_add_right _ _) start)
    · obtain ⟨m', hm', hnames, hindex⟩ := ih h
      refine ⟨m', List.mem_cons_of_mem _ hm', hnames, fun e he ↦ ?_⟩
      rw [← Nat.add_assoc]
      exact hindex e he

/-- The graph of a project whose names are texts that differ is sound. -/
theorem isSound_ofProject {p : Project Entity} (h : p.HasTextNames) : (ofProject p).IsSound where
  names.modules := by
    have hnames : (ofProject p).project.modules.names = p.modules.names := names_numberModules 0 _
    exact h.modules.sublist (hnames ▸ List.Sublist.refl _)
  names.entities := by
    intro n hn
    obtain ⟨m, hm, hnames, -⟩ := exists_of_mem_numberModules hn
    exact (h.entities m hm).sublist (hnames ▸ List.Sublist.refl _)
  pooled := by
    intro n hn e he
    obtain ⟨-, -, -, hindex⟩ := exists_of_mem_numberModules hn
    have hlength : (ofProject p).pool.length = (p.modules.flatMap fun m ↦ m.2.entities).length := by
      simp [ofProject, Project.flatEntities, List.length_flatMap]
    rw [hlength, ← Nat.zero_add (List.length _)]
    exact hindex e he

/-- What a proper change makes of a sound graph is sound. -/
theorem Effect.isSound {c : Change} (h : g.Effect c g') (hg : g.IsSound) (hc : c.IsProper g) :
    g'.IsSound := by
  cases h with
  | setParent id path =>
    refine ⟨hg.names, fun m hm e he ↦ ?_⟩
    have hlength : (g.setParent id path).pool.length = g.pool.length := List.length_modify _ _ _
    rw [hlength]
    exact hg.pooled m hm e he
  | putEntity name e hm => exact hg.withModule_insert hm hc (by simp)
  | nameEntity name id hm => exact hg.withModule_insert hm hc.1 (by simpa using hc.2)
  | removeEntity name hm =>
    obtain ⟨hmodule, hentities, hpooled⟩ := hg.of_find? hm
    refine hg.withModule hmodule (hentities.erase name) fun e he ↦ ?_
    rw [List.append_nil]
    exact hpooled e ((Table.erase_sublist _ name).subset he)
  | enumerations enumerations _ hm =>
    obtain ⟨hmodule, hentities, hpooled⟩ := hg.of_find? hm
    refine hg.withModule hmodule hentities fun e he ↦ ?_
    rw [List.append_nil]
    exact hpooled e he
  | putModule name m =>
    have hnumbered : (numberEntities g.pool.length m.entities).HasTextNames :=
      hc.2.sublist (names_numberEntities g.pool.length m.entities ▸ List.Sublist.refl _)
    refine hg.withModule hc.1 hnumbered fun e he ↦ ?_
    rw [List.length_append, List.length_map]
    exact index_lt_of_mem_numberEntities he
  | removeModule name =>
    have hkept := (Table.erase_sublist g.project.modules name).subset
    exact ⟨⟨hg.names.modules.erase name, fun m hm ↦ hg.names.entities m (hkept hm)⟩,
      fun m hm ↦ hg.pooled m (hkept hm)⟩

/-- No entity leaves the pool. -/
theorem Effect.length_pool_le {c : Change} (h : g.Effect c g') :
    g.pool.length ≤ g'.pool.length := by
  cases h with
  | setParent id path => exact Nat.le_of_eq (List.length_modify _ _ _).symm
  | removeModule name => exact Nat.le_refl _
  | _ => exact List.length_append ▸ Nat.le_add_right _ _

theorem IsSound.after {c : Change} (h : g.IsSound) (hc : c.IsProper g) : (g.after c).IsSound := by
  rcases g.effect_after c with heffect | hsame
  · exact heffect.isSound h hc
  · rw [hsame]
    exact h

theorem length_pool_le_after (g : Graph) (c : Change) :
    g.pool.length ≤ (g.after c).pool.length := by
  rcases g.effect_after c with heffect | hsame
  · exact heffect.length_pool_le
  · exact Nat.le_of_eq (congrArg (fun g ↦ g.pool.length) hsame.symm)

end EntityGraph.Graph
