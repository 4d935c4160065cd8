import EntityGraph.Proofs.Check.References
import EntityGraph.Proofs.Graph.Chains
import EntityGraph.Proofs.Graph.Changes

/-!
# Locality of inheritance

The walk to the ancestors of an entity reads the parents of the entities that it comes to, and what
these paths lead to. Nothing else in the graph has a part in it. So a change leaves the ancestors of
an entity alone if it sets no parent that the walk reads and names or takes away nothing that a path
of the walk could lead to, be the walk one that ends or one that comes back to itself.

`ReadsAlike` says that a graph answers alike whatever the walk in another graph reads. It is what
carries the walk through both graphs side by side, and every change that spares the walk leads to a
graph of this kind. The walk comes to the same entities in it, so that what spares the walk in one
of the graphs spares it in the other, and one change may follow another.
-/

namespace EntityGraph.Graph

/-! ## What a walk reads -/

/-- Whether the walk from an entity comes to another one, or starts there. -/
def Visits (g : Graph) (id e : EntityId) : Prop := ∃ n, g.lineage g.project id n = some e

/-- Whether a path is the parent of an entity that the walk from an entity comes to. The walk
follows it, or finds that it leads nowhere. -/
def Attempts (g : Graph) (id : EntityId) (path : ElementPath) : Prop :=
  ∃ e, g.Visits id e ∧ (g.entity e).parent = some path

/-- Whether a change leaves alone whatever the walk from an entity reads. -/
def Change.Spares (g : Graph) (id : EntityId) : Change → Prop
  | .setParent e _ => ¬ g.Visits id e
  | .putEntity moduleName name _ | .nameEntity moduleName name _ | .removeEntity moduleName name =>
    ¬ g.Attempts id ⟨moduleName, name⟩
  | .putEnumeration _ _ _ | .removeEnumeration _ _ => True
  | .putModule name _ | .removeModule name => ∀ path, g.Attempts id path → path.moduleName ≠ name

variable {g g' : Graph} {id : EntityId}

theorem visits_self : g.Visits id id := ⟨0, rfl⟩

theorem Visits.parent {e parent : EntityId} {path : ElementPath} (h : g.Visits id e)
    (hpath : (g.entity e).parent = some path)
    (hfollow : g.project.findEntity path = .ok (some parent)) : g.Visits id parent := by
  obtain ⟨n, hn⟩ := h
  refine ⟨n + 1, ?_⟩
  have hfound : follow g.project path = .ok (some parent) := hfollow
  rw [lineage_succ, hn, Option.bind_some, parentOf, hpath]
  simp only [hfound]

/-- A walk stays among entities that hold the parents of all of them. -/
theorem Visits.mem_of_closed {s : List EntityId} {e : EntityId} (h : g.Visits id e) (hid : id ∈ s)
    (hs : ∀ e ∈ s, ∀ parent, g.parentOf g.project e = some parent → parent ∈ s) : e ∈ s := by
  obtain ⟨n, hn⟩ := h
  induction n generalizing e with
  | zero =>
    cases hn
    exact hid
  | succ n ih =>
    obtain ⟨child, hchild, hparent⟩ := Option.bind_eq_some_iff.mp hn
    exact hs child (ih hchild) e hparent

/-- A graph answers alike whatever the walk from an entity reads in another. -/
structure ReadsAlike (g g' : Graph) (id : EntityId) : Prop where
  parent : ∀ e, g.Visits id e → (g'.entity e).parent = (g.entity e).parent
  found : ∀ path, g.Attempts id path → g'.project.findEntity path = g.project.findEntity path

namespace ReadsAlike

/-- From an entity that the walk comes to, the walks in both graphs go the same way. -/
theorem answer_climb (h : g.ReadsAlike g' id) {current : EntityId} {below : List EntityId}
    {followed : List ElementPath} (hcurrent : g.Visits id current) :
    (g'.climb g'.project current below followed).answer =
      (g.climb g.project current below followed).answer := by
  have hparent := h.parent current hcurrent
  cases hpath : (g.entity current).parent with
  | none => rw [answer_climb_of_none hpath, answer_climb_of_none (hparent.trans hpath)]
  | some path =>
    have hfound : follow g'.project path = follow g.project path :=
      h.found path ⟨current, hcurrent, hpath⟩
    rw [answer_climb_of_some hpath, answer_climb_of_some (hparent.trans hpath), hfound]
    cases hfollow : follow g.project path with
    | error fault => rfl
    | ok found =>
      cases found with
      | none => rfl
      | some parent =>
        rw [ok_bind, ok_bind]
        dsimp only
        by_cases hold : parent ∈ current :: below
        · rw [if_pos hold, if_pos hold]
        · rw [if_neg hold, if_neg hold]
          -- The parent is new to the walk, which has fewer entities left to visit.
          exact h.answer_climb (hcurrent.parent hpath hfollow)
termination_by (unvisited (named g.project) (current :: below)).length
decreasing_by exact length_unvisited_lt (mem_named_of_follow hfollow) hold

theorem answer_ancestors (h : g.ReadsAlike g' id) :
    (g'.ancestors g'.project id).answer = (g.ancestors g.project id).answer :=
  h.answer_climb visits_self

theorem refl : g.ReadsAlike g id := ⟨fun _ _ ↦ rfl, fun _ _ ↦ rfl⟩

theorem parentOf_eq (h : g.ReadsAlike g' id) {e : EntityId} (he : g.Visits id e) :
    g'.parentOf g'.project e = g.parentOf g.project e := by
  rw [parentOf, parentOf, h.parent e he]
  cases hpath : (g.entity e).parent with
  | none => rfl
  | some path =>
    have hfound : follow g'.project path = follow g.project path := h.found path ⟨e, he, hpath⟩
    dsimp only
    rw [hfound]

theorem lineage_eq (h : g.ReadsAlike g' id) (n : Nat) :
    g'.lineage g'.project id n = g.lineage g.project id n := by
  induction n with
  | zero => rfl
  | succ n ih =>
    rw [lineage_succ, lineage_succ, ih]
    cases hn : g.lineage g.project id n with
    | none => rfl
    | some e => exact h.parentOf_eq ⟨n, hn⟩

theorem visits_iff (h : g.ReadsAlike g' id) {e : EntityId} : g'.Visits id e ↔ g.Visits id e :=
  exists_congr fun n ↦ by rw [h.lineage_eq]

theorem attempts_iff (h : g.ReadsAlike g' id) {path : ElementPath} :
    g'.Attempts id path ↔ g.Attempts id path :=
  exists_congr fun e ↦ by
    rw [h.visits_iff]
    exact and_congr_right fun he ↦ by rw [h.parent e he]

theorem spares_iff (h : g.ReadsAlike g' id) {c : Change} : c.Spares g' id ↔ c.Spares g id := by
  cases c with
  | setParent e path => exact not_congr h.visits_iff
  | putEntity _ _ _ | nameEntity _ _ _ | removeEntity _ _ => exact not_congr h.attempts_iff
  | putEnumeration _ _ _ | removeEnumeration _ _ => exact Iff.rfl
  | putModule _ _ | removeModule _ =>
    exact forall_congr' fun _ ↦ imp_congr_left h.attempts_iff

theorem trans {g'' : Graph} (h : g.ReadsAlike g' id) (h' : g'.ReadsAlike g'' id) :
    g.ReadsAlike g'' id where
  parent := fun e he ↦ (h'.parent e (h.visits_iff.mpr he)).trans (h.parent e he)
  found := fun path hpath ↦
    (h'.found path (h.attempts_iff.mpr hpath)).trans (h.found path hpath)

end ReadsAlike

/-! ## What changes leave alone -/

/-- A path leads where it did if the module that was put in has under its name what the module that
it replaces had. -/
theorem findEntity_withModule (hg : g.IsSound) {moduleName : Value} {m : Module EntityId}
    {new : List Entity} (hname : moduleName.isText = true) {path : ElementPath}
    (hsame : path.moduleName = moduleName → ∃ old, g.project.modules.find? moduleName = some old ∧
      m.entities.find? path.name = old.entities.find? path.name) :
    (g.withModule moduleName m new).project.findEntity path = g.project.findEntity path := by
  have hmodules : (g.withModule moduleName m new).project.modules =
      g.project.modules.insert moduleName m := rfl
  rw [Project.findEntity, Project.findEntity, hmodules]
  by_cases hhere : path.moduleName = moduleName
  · obtain ⟨old, hold, hentities⟩ := hsame hhere
    rw [hhere, Table.get, Table.get, if_pos (Value.isKey_of_isText hname),
      if_pos (Value.isKey_of_isText hname), hg.names.modules.find?_insert_self hname, hold,
      ok_bind, ok_bind]
    dsimp only
    rw [Table.get, Table.get, hentities]
  · rw [Table.get, Table.get, hg.names.modules.find?_insert_of_ne hname hhere]

theorem entity_of_index_lt (hindex : id.index < g.pool.length) (new : List Entity) :
    ((g.pool ++ new).getD id.index {}) = g.entity id := by
  rw [entity, List.getD_eq_getElem?_getD, List.getElem?_append_left hindex,
    List.getD_eq_getElem?_getD]

/-- Changing an entity does not change another. -/
theorem entity_changeEntity_of_ne {e : EntityId} (hne : e ≠ id) (change : Entity → Entity) :
    (g.changeEntity id change).entity e = g.entity e := by
  have hindex : id.index ≠ e.index := fun h ↦ hne (by cases e; cases id; cases h; rfl)
  have hpool : (g.changeEntity id change).pool = g.pool.modify id.index change := rfl
  rw [entity, entity, hpool, List.getD_eq_getElem?_getD, List.getD_eq_getElem?_getD,
    List.getElem?_modify_ne change g.pool hindex]

/-- Everything that a walk in a sound graph comes to is in the pool. -/
theorem Visits.index_lt {e : EntityId} (h : g.Visits id e) (hg : g.IsSound)
    (hid : id.index < g.pool.length) : e.index < g.pool.length := by
  obtain ⟨n, hn⟩ := h
  rcases List.mem_cons.mp (mem_of_lineage hn) with rfl | hmem
  · exact hid
  · exact hg.index_lt hmem

/-- Another module and further entities are not read, if the module has nothing new under a name
that the walk looks up. -/
theorem readsAlike_withModule (hg : g.IsSound) (hid : id.index < g.pool.length) {moduleName : Value}
    {m : Module EntityId} {new : List Entity} (hname : moduleName.isText = true)
    (hsame : ∀ path, g.Attempts id path → path.moduleName = moduleName →
      ∃ old, g.project.modules.find? moduleName = some old ∧
        m.entities.find? path.name = old.entities.find? path.name) :
    g.ReadsAlike (g.withModule moduleName m new) id where
  parent := by
    intro e he
    exact congrArg Entity.parent (entity_of_index_lt (he.index_lt hg hid) new)
  found := fun path hpath ↦ findEntity_withModule hg hname (hsame path hpath)

/-- A change that spares a walk is not noticed by it. -/
theorem Effect.readsAlike {c : Change} (h : g.Effect c g') (hg : g.IsSound)
    (hid : id.index < g.pool.length) (hc : c.IsProper g) (hspares : c.Spares g id) :
    g.ReadsAlike g' id := by
  -- The table of a module that is changed under one name says the same under every other.
  have hother {moduleName name : Value} {m : Module EntityId} {t : Table EntityId}
      (hm : g.project.modules.find? moduleName = some m)
      (hmissed : ¬ g.Attempts id ⟨moduleName, name⟩)
      (ht : ∀ other, other ≠ name → t.find? other = m.entities.find? other)
      (path : ElementPath) (hpath : g.Attempts id path) (hhere : path.moduleName = moduleName) :
      ∃ old, g.project.modules.find? moduleName = some old ∧
        t.find? path.name = old.entities.find? path.name := by
    refine ⟨m, hm, ht path.name ?_⟩
    rintro rfl
    exact hmissed (hhere ▸ hpath)
  cases h with
  | setParent e path =>
    refine ⟨fun e' he' ↦ ?_, fun _ _ ↦ rfl⟩
    have hne : e' ≠ e := fun heq ↦ hspares (heq ▸ he')
    exact congrArg Entity.parent (entity_changeEntity_of_ne hne _)
  | putEntity name e hm =>
    obtain ⟨hmodule, hentities, -⟩ := hg.of_find? hm
    exact readsAlike_withModule hg hid hmodule
      (hother hm hspares fun _ hne ↦ hentities.find?_insert_of_ne hc hne)
  | nameEntity name e hm =>
    obtain ⟨hmodule, hentities, -⟩ := hg.of_find? hm
    exact readsAlike_withModule hg hid hmodule
      (hother hm hspares fun _ hne ↦ hentities.find?_insert_of_ne hc.1 hne)
  | removeEntity name hm =>
    obtain ⟨hmodule, hentities, -⟩ := hg.of_find? hm
    exact readsAlike_withModule hg hid hmodule
      (hother hm hspares fun _ hne ↦ hentities.find?_erase_of_ne hne)
  | enumerations enumerations _ hm =>
    exact readsAlike_withModule hg hid (hg.of_find? hm).1 fun path _ _ ↦ ⟨_, hm, rfl⟩
  | putModule name m =>
    exact readsAlike_withModule hg hid hc.1 fun path hpath hhere ↦
      absurd hhere (hspares path hpath)
  | removeModule name =>
    refine ⟨fun _ _ ↦ rfl, fun path hpath ↦ ?_⟩
    have hmodules : (g.withModules (g.project.modules.erase name)).project.modules =
        g.project.modules.erase name := rfl
    rw [Project.findEntity, Project.findEntity, hmodules, Table.get, Table.get,
      hg.names.modules.find?_erase_of_ne (hspares path hpath)]

theorem readsAlike_after (hg : g.IsSound) (hid : id.index < g.pool.length) {c : Change}
    (hc : c.IsProper g) (hspares : c.Spares g id) : g.ReadsAlike (g.after c) id := by
  rcases g.effect_after c with heffect | hsame
  · exact heffect.readsAlike hg hid hc hspares
  · rw [hsame]
    exact .refl

/-! ## One change after another -/

/-- Changes that spare a walk are not noticed by it, however many there are. -/
theorem readsAlike_afterAll (hg : g.IsSound) (hid : id.index < g.pool.length) {cs : List Change}
    (hcs : AreProper g cs) (hspares : ∀ c ∈ cs, c.Spares g id) :
    g.ReadsAlike (g.afterAll cs) id := by
  induction cs generalizing g with
  | nil => exact .refl
  | cons c cs ih =>
    obtain ⟨hc, hcs⟩ := hcs
    have halike := readsAlike_after hg hid hc (hspares c List.mem_cons_self)
    have hid' : id.index < (g.after c).pool.length :=
      Nat.lt_of_lt_of_le hid (g.length_pool_le_after c)
    refine halike.trans (ih (hg.after hc) hid' hcs fun c' hc' ↦ ?_)
    exact halike.spares_iff.mpr (hspares c' (List.mem_cons_of_mem c hc'))

/-- The walk from an entity answers with a chain, or with the paths of a loop, if the parents that
it may come to are textual. -/
theorem answer_ancestors_of_isTextual
    (h : ∀ e ∈ id :: g.project.identities, ∀ path, (g.entity e).parent = some path →
      path.IsTextual) :
    (∃ chain, (g.ancestors g.project id).answer = .ok chain) ∨
      ∃ followed, (g.ancestors g.project id).answer = .error (.cyclicInheritance followed) := by
  have hkeys : g.HasKeyParents g.project id := fun e he path hpath ↦ (h e he path hpath).isKey
  rcases answer_ancestors hkeys with ⟨chain, hchain, -, -⟩ | ⟨followed, hfault, hloop⟩
  · exact Or.inl ⟨chain, hchain⟩
  · rw [Fault.cyclic, if_pos (References.all_isWritable_of_isLoop h hloop)] at hfault
    exact Or.inr ⟨followed, hfault⟩

/-- The ancestors of an entity are what they were after any changes that spare the walk to them: the
same chain, or a loop that is told by the same paths. -/
theorem ancestors_afterAll_of_spares (hg : g.IsSound) (hid : id.index < g.pool.length)
    (htextual : ∀ e ∈ id :: g.project.identities, ∀ path, (g.entity e).parent = some path →
      path.IsTextual)
    {cs : List Change} (hcs : AreProper g cs) (hspares : ∀ c ∈ cs, c.Spares g id) :
    (∃ chain, (g.ancestors g.project id).answer = .ok chain ∧
      ((g.afterAll cs).ancestors (g.afterAll cs).project id).answer = .ok chain) ∨
    ∃ followed, (g.ancestors g.project id).answer = .error (.cyclicInheritance followed) ∧
      ((g.afterAll cs).ancestors (g.afterAll cs).project id).answer =
        .error (.cyclicInheritance followed) := by
  have hsame : ((g.afterAll cs).ancestors (g.afterAll cs).project id).answer =
      (g.ancestors g.project id).answer := (readsAlike_afterAll hg hid hcs hspares).answer_ancestors
  rw [hsame]
  rcases answer_ancestors_of_isTextual htextual with ⟨chain, hchain⟩ | ⟨followed, hfault⟩
  · exact Or.inl ⟨chain, hchain, hchain⟩
  · exact Or.inr ⟨followed, hfault, hfault⟩

/-! ## Changes beside a walk that ends and one that does not -/

/-- The parent of the first entity has a parent that is not there; the third is its own parent. -/
def outskirts : Graph := ofProject
  { modules := [(.str "m",
      { entities :=
          [(.str "A", { parent := some ⟨.str "m", .str "B"⟩ }),
            (.str "B", { parent := some ⟨.str "m", .str "Nowhere"⟩ }),
            (.str "C", { parent := some ⟨.str "m", .str "C"⟩ }),
            (.str "D", {})] })] }

theorem isSound_outskirts : outskirts.IsSound := by
  refine isSound_ofProject ⟨?_, ?_⟩
  · simp [Table.hasTextNames_cons, Table.HasTextNames.nil, Table.names, Value.isText]
  · simp [Table.hasTextNames_cons, Table.HasTextNames.nil, Table.names, Value.isText]

theorem isTextual_outskirts {e : EntityId} {path : ElementPath}
    (h : (outskirts.entity e).parent = some path) : path.IsTextual := by
  have hparents : ∀ e ∈ outskirts.pool, ∀ path, e.parent = some path → path.IsTextual := by
    simp [outskirts, ofProject, Project.flatEntities, ElementPath.IsTextual, Value.isText]
  exact hparents _ (entity_mem_pool h) path h

/-- An end to the loop, the loss of an entity, and a module of the name that the first walk
misses. -/
def besideFirst : List Change :=
  [.setParent ⟨2⟩ none, .removeEntity (.str "m") (.str "D"), .putModule (.str "Nowhere") {}]

/-- An entity of the name that the first walk misses, and a way from the first entity into the
loop. -/
def besideThird : List Change :=
  [.putEntity (.str "m") (.str "Nowhere") {}, .setParent ⟨0⟩ (some ⟨.str "m", .str "C"⟩)]

theorem spares_besideFirst : ∀ c ∈ besideFirst, c.Spares outskirts ⟨0⟩ := by
  have hvisits : ∀ e, outskirts.Visits ⟨0⟩ e → e ∈ [⟨0⟩, ⟨1⟩] := by
    have hfirst : outskirts.parentOf outskirts.project ⟨0⟩ = some ⟨1⟩ := rfl
    have hsecond : outskirts.parentOf outskirts.project ⟨1⟩ = none := rfl
    intro e he
    refine he.mem_of_closed List.mem_cons_self ?_
    simp [hfirst, hsecond]
  have hattempts : ∀ path, outskirts.Attempts ⟨0⟩ path →
      path ∈ [⟨.str "m", .str "B"⟩, ⟨.str "m", .str "Nowhere"⟩] := by
    rintro path ⟨e, he, hpath⟩
    rcases List.mem_pair.mp (hvisits e he) with rfl | rfl
    · cases hpath
      simp
    · cases hpath
      simp
  rw [besideFirst, List.forall_mem_cons, List.forall_mem_cons, List.forall_mem_singleton]
  refine ⟨fun h ↦ ?_, fun h ↦ ?_, fun path h hname ↦ ?_⟩
  · simpa using hvisits _ h
  · simpa using hattempts _ h
  · have hpath := hattempts path h
    rcases List.mem_pair.mp hpath with rfl | rfl
    · simp at hname
    · simp at hname

theorem spares_besideThird : ∀ c ∈ besideThird, c.Spares outskirts ⟨2⟩ := by
  have hvisits : ∀ e, outskirts.Visits ⟨2⟩ e → e ∈ [⟨2⟩] := by
    have hself : outskirts.parentOf outskirts.project ⟨2⟩ = some ⟨2⟩ := rfl
    intro e he
    refine he.mem_of_closed List.mem_cons_self ?_
    simp [hself]
  rw [besideThird, List.forall_mem_cons, List.forall_mem_singleton]
  refine ⟨?_, fun h ↦ ?_⟩
  · rintro ⟨e, he, hpath⟩
    rw [List.mem_singleton.mp (hvisits e he)] at hpath
    cases hpath
  · simpa using hvisits _ h

theorem ancestors_afterAll_outskirts :
    (outskirts.ancestors outskirts.project ⟨0⟩).answer = .ok [⟨1⟩, ⟨0⟩] ∧
    ((outskirts.afterAll besideFirst).ancestors (outskirts.afterAll besideFirst).project
      ⟨0⟩).answer = .ok [⟨1⟩, ⟨0⟩] ∧
    (outskirts.ancestors outskirts.project ⟨2⟩).answer =
      .error (.cyclicInheritance [⟨.str "m", .str "C"⟩]) ∧
    ((outskirts.afterAll besideThird).ancestors (outskirts.afterAll besideThird).project
      ⟨2⟩).answer = .error (.cyclicInheritance [⟨.str "m", .str "C"⟩]) := by
  have htextual (id : EntityId) : ∀ e ∈ id :: outskirts.project.identities, ∀ path,
      (outskirts.entity e).parent = some path → path.IsTextual :=
    fun _ _ _ ↦ isTextual_outskirts
  have hends : (outskirts.ancestors outskirts.project ⟨0⟩).answer = .ok [⟨1⟩, ⟨0⟩] := by
    have hB : outskirts.IsChain outskirts.project [⟨1⟩] ⟨1⟩ := .root fun path hpath ↦ by
      cases hpath
      rfl
    exact IsChain.answer_ancestors (.child hB rfl rfl)
  have hloops : (outskirts.ancestors outskirts.project ⟨2⟩).answer =
      .error (.cyclicInheritance [⟨.str "m", .str "C"⟩]) := by
    have hparent : (outskirts.entity ⟨2⟩).parent = some ⟨.str "m", .str "C"⟩ := rfl
    rw [ancestors, answer_climb_of_some hparent]
    rfl
  have hfirst : AreProper outskirts besideFirst :=
    ⟨trivial, trivial, ⟨rfl, Table.HasTextNames.nil⟩, trivial⟩
  have hthird : AreProper outskirts besideThird := ⟨rfl, trivial, trivial⟩
  refine ⟨hends, ?_, hloops, ?_⟩
  · rcases ancestors_afterAll_of_spares isSound_outskirts (by decide) (htextual _) hfirst
      spares_besideFirst with ⟨chain, hbefore, hafter⟩ | ⟨followed, hbefore, -⟩
    · cases hends.symm.trans hbefore
      exact hafter
    · cases hends.symm.trans hbefore
  · rcases ancestors_afterAll_of_spares isSound_outskirts (by decide) (htextual _) hthird
      spares_besideThird with ⟨chain, hbefore, -⟩ | ⟨followed, hbefore, hafter⟩
    · cases hloops.symm.trans hbefore
    · cases hloops.symm.trans hbefore
      exact hafter

end EntityGraph.Graph
