import EntityGraph.Check.References
import EntityGraph.Proofs.Graph.Lineage
import EntityGraph.Proofs.Value.Keys

/-!
# Reference issues

A graph refers to its own elements in four kinds of places: the parent and the response of an
entity, the type of a field or of a binding, and the lineage of an entity as a whole. `IsBroken`
says of each place when it is broken, in terms of what the paths lead to and of whether the lineage
ends, and does not mention the check. The check goes through the places in a fixed order; what it
answers is shown to be one issue for each broken place and none for the others.

The names of a graph may be any values, and of some of them no pointer can be made. The results
here are about graphs whose names are texts and whose paths hold texts or nothing.
-/

namespace EntityGraph

/-! ## Textual graphs -/

/-- Both parts of a path are texts or not set. -/
def ElementPath.IsTextual (path : ElementPath) : Prop :=
  (path.moduleName = .null ∨ path.moduleName.isText = true) ∧
    (path.name = .null ∨ path.name.isText = true)

/-- The path that a type refers to, if any, is textual. -/
def FieldType.IsTextual (t : FieldType) : Prop :=
  ∀ path, t.core = .object path ∨ t.core = .enumeration path → path.IsTextual

/-- The names and the paths of an entity are textual. -/
structure Entity.IsTextual (e : Entity) : Prop where
  parent : ∀ path, e.parent = some path → path.IsTextual
  response : ∀ path, e.response = some path → path.IsTextual
  fields : ∀ f ∈ e.fields, f.1.isText = true ∧ f.2.type.IsTextual
  bindings : ∀ f ∈ e.bindings, f.1.isText = true ∧ f.2.type.IsTextual

/-- The names of modules and entities are texts, and so is what the entities hold. -/
structure Graph.IsTextual (g : Graph) : Prop where
  modules : ∀ m ∈ g.project.modules, m.1.isText = true
  names : ∀ m ∈ g.project.modules, ∀ e ∈ m.2.entities, e.1.isText = true
  entities : ∀ id ∈ g.project.identities, (g.entity id).IsTextual

/-- The parents in a graph are textual. -/
def Graph.HasTextualParents (g : Graph) : Prop :=
  ∀ id ∈ g.project.identities, ∀ path, (g.entity id).parent = some path → path.IsTextual

theorem Graph.IsTextual.parents {g : Graph} (h : g.IsTextual) : g.HasTextualParents :=
  fun id hid ↦ (h.entities id hid).parent

namespace ElementPath.IsTextual

variable {path : ElementPath}

theorem isWritable (h : path.IsTextual) : path.isWritable = true := by
  have hpart {v : Value} (hv : v = .null ∨ v.isText = true) : v.isWritable = true := by
    rcases hv with rfl | hv
    · rfl
    · exact Value.isWritable_of_isText hv
  rw [ElementPath.isWritable, hpart h.1, hpart h.2]
  rfl

theorem isKey (h : path.IsTextual) :
    path.moduleName.isKey = true ∧ path.name.isKey = true := by
  have hpart {v : Value} (hv : v = .null ∨ v.isText = true) : v.isKey = true := by
    rcases hv with rfl | hv
    · rfl
    · exact Value.isKey_of_isText hv
  exact ⟨hpart h.1, hpart h.2⟩

end ElementPath.IsTextual

/-! ## What paths lead to -/

namespace Project

variable (p : Project EntityId) (path : ElementPath)

/-- The path leads to an entity. -/
def HasEntity : Prop := ∃ id, p.findEntity path = .ok (some id)

/-- The path leads to an enumeration. -/
def HasEnumeration : Prop := ∃ e, p.findEnumeration path = .ok (some e)

variable {p path}

/-- What answers leads to something or to nothing. -/
theorem ok_cases {α : Type} {x : Except Fault (Option α)} (h : ∃ found, x = .ok found) :
    (∃ a, x = .ok (some a)) ∨ x = .ok none ∧ ¬ ∃ a, x = .ok (some a) := by
  obtain ⟨found, rfl⟩ := h
  cases found with
  | none =>
    right
    refine ⟨rfl, ?_⟩
    rintro ⟨a, ha⟩
    cases ha
  | some a => exact Or.inl ⟨a, rfl⟩

theorem findEntity_cases (h : path.IsTextual) :
    p.HasEntity path ∨ p.findEntity path = .ok none ∧ ¬ p.HasEntity path :=
  ok_cases (exists_ok_of_isKey Module.entities h.isKey.1 h.isKey.2)

theorem findEnumeration_cases (h : path.IsTextual) :
    p.HasEnumeration path ∨ p.findEnumeration path = .ok none ∧ ¬ p.HasEnumeration path :=
  ok_cases (exists_ok_of_isKey Module.enumerations h.isKey.1 h.isKey.2)

end Project

/-! ## Places and what is wrong with them -/

namespace References

/-- Where an entity refers to something: a member has the name of its table and its own. -/
inductive Site where
  | parent (path : ElementPath)
  | response (path : ElementPath)
  | member (table : String) (name : Value) (type : FieldType)
  | lineage

/-- A place in a graph: the path of an entity, the entity, and where in it. -/
structure Place where
  owner : ElementPath
  id : EntityId
  site : Site

/-- The members of a table as places. -/
def membersOf (owner : ElementPath) (id : EntityId) (table : String) (fields : Table Field) :
    List Place :=
  fields.map fun f ↦ ⟨owner, id, .member table f.1 f.2.type⟩

/-- The places of an entity that hold paths. -/
def pathsOf (owner : ElementPath) (id : EntityId) (e : Entity) : List Place :=
  (e.parent.toList.map fun path ↦ ⟨owner, id, .parent path⟩) ++
    (e.response.toList.map fun path ↦ ⟨owner, id, .response path⟩) ++
    membersOf owner id "fieldsLocal" e.fields ++ membersOf owner id "genericMap" e.bindings

/-- All the places of an entity, in the order in which they are looked at. -/
def placesOf (owner : ElementPath) (id : EntityId) (e : Entity) : List Place :=
  pathsOf owner id e ++ [⟨owner, id, .lineage⟩]

/-- The places of a graph, entity by entity in document order. -/
def places (g : Graph) : List Place :=
  g.project.flatEntities.flatMap fun e ↦ placesOf e.1 e.2 (g.entity e.2)

/-- The pointer that an issue at a place has. -/
def Place.pointer (place : Place) : Text :=
  match place.site with
  | .parent _ | .lineage => Pointer.join (entityPointer place.owner) "parent"
  | .response _ => Pointer.join (entityPointer place.owner) "response"
  | .member table name _ =>
    Pointer.join (Pointer.join (entityPointer place.owner) table) name.plain

/-- What is wrong with a place, and how grave it is. -/
inductive IsBroken (g : Graph) (owner : ElementPath) (id : EntityId) :
    Site → Severity → Finding → Prop where
  | parentIsEnumeration {path : ElementPath} :
    ¬ g.project.HasEntity path → g.project.HasEnumeration path →
      IsBroken g owner id (.parent path) .error (.parentIsEnumeration path owner)
  | parentUnresolved {path : ElementPath} :
    ¬ g.project.HasEntity path → ¬ g.project.HasEnumeration path →
      IsBroken g owner id (.parent path) .warning (.parentUnresolved path owner)
  | responseUnresolved {path : ElementPath} :
    ¬ g.project.HasEntity path →
      IsBroken g owner id (.response path) .warning (.responseUnresolved path owner)
  | entityUnresolved {table : String} {name : Value} {t : FieldType} {path : ElementPath} :
    t.core = .object path → ¬ g.project.HasEntity path →
      IsBroken g owner id (.member table name t) .warning (.entityUnresolved path)
  | enumerationUnresolved {table : String} {name : Value} {t : FieldType} {path : ElementPath} :
    t.core = .enumeration path → ¬ g.project.HasEnumeration path →
      IsBroken g owner id (.member table name t) .warning (.enumerationUnresolved path)
  | endless {followed : List ElementPath} :
    ¬ g.Ends g.project id → g.IsLoop g.project id followed →
      IsBroken g owner id .lineage .error (.cyclicInheritance followed)

/-- Nothing is wrong with a place. -/
def IsSound (g : Graph) (place : Place) : Prop :=
  ∀ severity finding, ¬ IsBroken g place.owner place.id place.site severity finding

section Sound

variable {g : Graph} {owner : ElementPath} {id : EntityId} {path : ElementPath}

theorem isSound_parent_iff :
    IsSound g ⟨owner, id, .parent path⟩ ↔ g.project.HasEntity path := by
  constructor
  · intro h
    by_contra hmissing
    by_cases henum : g.project.HasEnumeration path
    · exact h _ _ (.parentIsEnumeration hmissing henum)
    · exact h _ _ (.parentUnresolved hmissing henum)
  · intro h severity finding hbroken
    cases hbroken with
    | parentIsEnumeration hmissing _ => exact hmissing h
    | parentUnresolved hmissing _ => exact hmissing h

theorem isSound_response_iff :
    IsSound g ⟨owner, id, .response path⟩ ↔ g.project.HasEntity path := by
  constructor
  · intro h
    by_contra hmissing
    exact h _ _ (.responseUnresolved hmissing)
  · intro h severity finding hbroken
    cases hbroken with
    | responseUnresolved hmissing => exact hmissing h

/-- A type is sound when what it refers to inside its lists is there. -/
theorem isSound_member_iff {table : String} {name : Value} {t : FieldType} :
    IsSound g ⟨owner, id, .member table name t⟩ ↔
      (∀ path, t.core = .object path → g.project.HasEntity path) ∧
        ∀ path, t.core = .enumeration path → g.project.HasEnumeration path := by
  constructor
  · intro h
    constructor
    · intro path hcore
      by_contra hmissing
      exact h _ _ (.entityUnresolved hcore hmissing)
    · intro path hcore
      by_contra hmissing
      exact h _ _ (.enumerationUnresolved hcore hmissing)
  · rintro ⟨hobject, henum⟩ severity finding hbroken
    cases hbroken with
    | entityUnresolved hcore hmissing => exact hmissing (hobject _ hcore)
    | enumerationUnresolved hcore hmissing => exact hmissing (henum _ hcore)

theorem isSound_lineage_iff (hkeys : g.HasKeyParents g.project id) :
    IsSound g ⟨owner, id, .lineage⟩ ↔ g.Ends g.project id := by
  constructor
  · intro h
    rcases Graph.answer_ancestors hkeys with ⟨chain, -, -, hlineage⟩ | ⟨loop, -, hloop⟩
    · exact Graph.ends_of_reverse hlineage
    · exact absurd (.endless hloop.not_ends hloop) (h _ _)
  · intro h severity finding hbroken
    cases hbroken with
    | endless hendless _ => exact hendless h

end Sound

/-- One issue for each of some places that is broken, in their order, and no other issue. -/
inductive Reports (g : Graph) : List Place → List Issue → Prop where
  | nil : Reports g [] []
  | broken {place : Place} {i : Issue} {rest : List Place} {issues : List Issue} :
    IsBroken g place.owner place.id place.site i.severity i.finding →
      i.pointer = place.pointer → Reports g rest issues →
      Reports g (place :: rest) (i :: issues)
  | sound {place : Place} {rest : List Place} {issues : List Issue} :
    IsSound g place → Reports g rest issues → Reports g (place :: rest) issues

namespace Reports

variable {g : Graph} {before after : List Place} {issues others : List Issue}

theorem append (h : Reports g before issues) (h' : Reports g after others) :
    Reports g (before ++ after) (issues ++ others) := by
  induction h with
  | nil => exact h'
  | broken hbroken hpointer _ ih => exact .broken hbroken hpointer ih
  | sound hsound _ ih => exact .sound hsound ih

/-- There are no issues exactly when nothing is wrong with any place. -/
theorem eq_nil_iff (h : Reports g before issues) :
    issues = [] ↔ ∀ place ∈ before, IsSound g place := by
  induction h with
  | nil => exact ⟨fun _ place hplace ↦ absurd hplace List.not_mem_nil, fun _ ↦ rfl⟩
  | broken hbroken _ _ _ =>
    constructor
    · intro h
      cases h
    · intro h
      exact absurd hbroken (h _ List.mem_cons_self _ _)
  | sound hsound _ ih =>
    rw [ih, List.forall_mem_cons]
    exact ⟨fun h ↦ ⟨hsound, h⟩, fun h ↦ h.2⟩

/-- A single broken place. -/
theorem singleton {place : Place} {i : Issue}
    (h : IsBroken g place.owner place.id place.site i.severity i.finding)
    (hpointer : i.pointer = place.pointer) : Reports g [place] [i] :=
  .broken h hpointer .nil

theorem singleton_sound {place : Place} (h : IsSound g place) : Reports g [place] [] :=
  .sound h .nil

end Reports

/-! ## The check of an entity -/

section Entity

variable {g : Graph} {owner : ElementPath} {id : EntityId}

/-- An issue about paths with texts can be told. -/
theorem issue_of_isWritable {paths : List ElementPath}
    (h : ∀ path ∈ paths, path.isWritable = true) (finding : Finding) (pointer : Text) :
    issue paths finding pointer = .ok [⟨finding, pointer⟩] := by
  rw [issue, List.all_eq_true.mpr h]
  rfl

theorem reports_ofParent {parent : Option ElementPath} (howner : owner.isWritable = true)
    (h : ∀ path, parent = some path → path.IsTextual) :
    ∃ issues, ofParent g.project owner (entityPointer owner) parent = .ok issues ∧
      Reports g (parent.toList.map fun path ↦ ⟨owner, id, .parent path⟩) issues := by
  cases parent with
  | none => exact ⟨[], rfl, .nil⟩
  | some path =>
    have htextual : path.IsTextual := h path rfl
    have htold : ∀ q ∈ [path, owner], q.isWritable = true := by
      simp [htextual.isWritable, howner]
    rw [ofParent]
    -- The enumerations are asked only about a path that leads to no entity.
    rcases Project.findEntity_cases (p := g.project) htextual with
      ⟨e, he⟩ | ⟨hnone, hmissing⟩
    · rw [he]
      exact ⟨[], rfl, .singleton_sound (isSound_parent_iff.mpr ⟨e, he⟩)⟩
    · rw [hnone, ok_bind]
      rcases Project.findEnumeration_cases (p := g.project) htextual with
        ⟨d, hd⟩ | ⟨hnoEnum, hmissing'⟩
      · rw [hd, ok_bind, issue_of_isWritable htold]
        exact ⟨_, rfl, .singleton (.parentIsEnumeration hmissing ⟨d, hd⟩) rfl⟩
      · rw [hnoEnum, ok_bind, issue_of_isWritable htold]
        exact ⟨_, rfl, .singleton (.parentUnresolved hmissing hmissing') rfl⟩

theorem reports_ofResponse {response : Option ElementPath} (howner : owner.isWritable = true)
    (h : ∀ path, response = some path → path.IsTextual) :
    ∃ issues, ofResponse g.project owner (entityPointer owner) response = .ok issues ∧
      Reports g (response.toList.map fun path ↦ ⟨owner, id, .response path⟩) issues := by
  cases response with
  | none => exact ⟨[], rfl, .nil⟩
  | some path =>
    have htextual : path.IsTextual := h path rfl
    have htold : ∀ q ∈ [path, owner], q.isWritable = true := by
      simp [htextual.isWritable, howner]
    rw [ofResponse]
    rcases Project.findEntity_cases (p := g.project) htextual with
      ⟨e, he⟩ | ⟨hnone, hmissing⟩
    · rw [he]
      exact ⟨[], rfl, .singleton_sound (isSound_response_iff.mpr ⟨e, he⟩)⟩
    · rw [hnone, ok_bind, issue_of_isWritable htold]
      exact ⟨_, rfl, .singleton (.responseUnresolved hmissing) rfl⟩

/-- The type of a member is looked at inside its lists, at any depth. -/
theorem reports_ofType {table : String} {name : Value} {t : FieldType} (h : t.IsTextual) :
    ∃ issues, ofType g.project
        (Pointer.join (Pointer.join (entityPointer owner) table) name.plain) t = .ok issues ∧
      Reports g [⟨owner, id, .member table name t⟩] issues := by
  rw [ofType]
  cases hcore : t.core with
  | object path =>
    have htextual : path.IsTextual := h path (Or.inl hcore)
    rcases Project.findEntity_cases (p := g.project) htextual with
      ⟨e, he⟩ | ⟨hnone, hmissing⟩
    · simp only [he, ok_bind]
      refine ⟨[], rfl, .singleton_sound (isSound_member_iff.mpr ⟨?_, ?_⟩)⟩
      · rw [hcore]
        rintro _ ⟨⟩
        exact ⟨e, he⟩
      · rw [hcore]
        rintro _ ⟨⟩
    · simp only [hnone, ok_bind]
      rw [issue_of_isWritable (by simpa using htextual.isWritable)]
      exact ⟨_, rfl, .singleton (.entityUnresolved hcore hmissing) rfl⟩
  | enumeration path =>
    have htextual : path.IsTextual := h path (Or.inr hcore)
    rcases Project.findEnumeration_cases (p := g.project) htextual with
      ⟨d, hd⟩ | ⟨hnone, hmissing⟩
    · simp only [hd, ok_bind]
      refine ⟨[], rfl, .singleton_sound (isSound_member_iff.mpr ⟨?_, ?_⟩)⟩
      · rw [hcore]
        rintro _ ⟨⟩
      · rw [hcore]
        rintro _ ⟨⟩
        exact ⟨d, hd⟩
    · simp only [hnone, ok_bind]
      rw [issue_of_isWritable (by simpa using htextual.isWritable)]
      exact ⟨_, rfl, .singleton (.enumerationUnresolved hcore hmissing) rfl⟩
  | _ =>
    refine ⟨[], rfl, .singleton_sound (isSound_member_iff.mpr ⟨?_, ?_⟩)⟩
    · rw [hcore]
      rintro _ ⟨⟩
    · rw [hcore]
      rintro _ ⟨⟩

theorem reports_ofFields {table : String} {fields : Table Field}
    (h : ∀ f ∈ fields, f.1.isText = true ∧ f.2.type.IsTextual) :
    ∃ issues, ofFields g.project (Pointer.join (entityPointer owner) table) fields = .ok issues ∧
      Reports g (membersOf owner id table fields) issues := by
  induction fields with
  | nil => exact ⟨[], rfl, .nil⟩
  | cons f fields ih =>
    obtain ⟨name, f⟩ := f
    obtain ⟨hname, htype⟩ := h _ List.mem_cons_self
    obtain ⟨others, hothers, hrest⟩ := ih fun f' hf' ↦ h f' (List.mem_cons_of_mem _ hf')
    obtain ⟨issues, hissues, hreports⟩ : ∃ issues, ofType g.project
        (Pointer.join (Pointer.join (entityPointer owner) table) name.plain) f.type = .ok issues ∧
        Reports g [⟨owner, id, .member table name f.type⟩] issues := reports_ofType htype
    have htoken : token name = .ok name.plain := by
      cases name with
      | str t => rfl
      | _ => cases hname
    refine ⟨issues ++ others, ?_, hreports.append hrest⟩
    rw [ofFields, htoken, ok_bind]
    simp only [hissues, hothers, ok_bind]
    rfl

theorem reports_ofPaths {e : Entity} (howner : owner.IsTextual) (h : e.IsTextual) :
    ∃ issues, ofPaths g.project owner e = .ok issues ∧
      Reports g (pathsOf owner id e) issues := by
  obtain ⟨parent, hparent, hreports⟩ : ∃ issues, ofParent g.project owner (entityPointer owner)
      e.parent = .ok issues ∧ Reports g (e.parent.toList.map fun path ↦ ⟨owner, id, .parent path⟩)
        issues := reports_ofParent howner.isWritable h.parent
  obtain ⟨response, hresponse, hreports'⟩ : ∃ issues, ofResponse g.project owner
      (entityPointer owner) e.response = .ok issues ∧
      Reports g (e.response.toList.map fun path ↦ ⟨owner, id, .response path⟩) issues :=
    reports_ofResponse howner.isWritable h.response
  obtain ⟨fields, hfields, hmembers⟩ : ∃ issues, ofFields g.project
      (Pointer.join (entityPointer owner) "fieldsLocal") e.fields = .ok issues ∧
      Reports g (membersOf owner id "fieldsLocal" e.fields) issues := reports_ofFields h.fields
  obtain ⟨bindings, hbindings, hmembers'⟩ : ∃ issues, ofFields g.project
      (Pointer.join (entityPointer owner) "genericMap") e.bindings = .ok issues ∧
      Reports g (membersOf owner id "genericMap" e.bindings) issues := reports_ofFields h.bindings
  refine ⟨parent ++ response ++ fields ++ bindings, ?_,
    ((hreports.append hreports').append hmembers).append hmembers'⟩
  rw [ofPaths, howner.isWritable]
  -- The name of the entity has a text, so the first step of the check answers.
  change (do
    let parent ← ofParent g.project owner (entityPointer owner) e.parent
    let response ← ofResponse g.project owner (entityPointer owner) e.response
    let fields ← ofFields g.project (Pointer.join (entityPointer owner) "fieldsLocal") e.fields
    let bindings ← ofFields g.project (Pointer.join (entityPointer owner) "genericMap") e.bindings
    return parent ++ response ++ fields ++ bindings) = Except.ok _
  rw [hparent, ok_bind, hresponse, ok_bind, hfields, ok_bind, hbindings, ok_bind]
  rfl

/-- The walk to the ancestors fails exactly on a lineage that does not end. -/
theorem reports_ofInheritance (hkeys : g.HasKeyParents g.project id)
    (htold : ∀ followed, g.IsLoop g.project id followed →
      followed.all ElementPath.isWritable = true) :
    ∃ issues, (ofInheritance g owner id).answer = .ok issues ∧
      Reports g [⟨owner, id, .lineage⟩] issues := by
  rcases Graph.answer_ancestors hkeys with ⟨chain, hchain, -, hlineage⟩ | ⟨loop, hfault, hloop⟩
  · have hvalue : (g.ancestors (some g.project) id).outcome.value = .ok chain := hchain
    refine ⟨[], ?_, .singleton_sound ?_⟩
    · simp only [ofInheritance, hvalue]
      rfl
    · exact (isSound_lineage_iff hkeys).mpr (Graph.ends_of_reverse hlineage)
  · have hvalue : (g.ancestors (some g.project) id).outcome.value =
        .error (.cyclicInheritance loop) := by
      rw [Fault.cyclic, if_pos (htold loop hloop)] at hfault
      exact hfault
    refine ⟨[⟨.cyclicInheritance loop, Pointer.join (entityPointer owner) "parent"⟩], ?_,
      .singleton (.endless hloop.not_ends hloop) rfl⟩
    simp only [ofInheritance, hvalue]
    rfl

end Entity

/-! ## The check of a graph -/

section Graph

variable {g : Graph}

/-- Every path and every entity that is checked is textual. -/
theorem isTextual_of_mem (h : g.IsTextual) {entry : ElementPath × EntityId}
    (hentry : entry ∈ g.project.flatEntities) :
    entry.1.IsTextual ∧ entry.2 ∈ g.project.identities := by
  refine ⟨?_, List.mem_map_of_mem hentry⟩
  obtain ⟨m, hm, hmem⟩ := List.mem_flatMap.mp hentry
  obtain ⟨e, he, rfl⟩ := List.mem_map.mp hmem
  exact ⟨Or.inr (h.modules m hm), Or.inr (h.names m hm e he)⟩

/-- A lineage stays among the entities of the project, and so do the paths on it. -/
theorem isTextual_of_parent (h : g.HasTextualParents) {id e : EntityId}
    (hid : id ∈ g.project.identities) (he : e ∈ id :: Graph.named g.project) {path : ElementPath}
    (hpath : (g.entity e).parent = some path) : path.IsTextual := by
  have hmem : e ∈ g.project.identities := by
    rcases List.mem_cons.mp he with rfl | he
    · exact hid
    · exact he
  exact h e hmem path hpath

theorem hasKeyParents_of_hasTextualParents (h : g.HasTextualParents) {id : EntityId}
    (hid : id ∈ g.project.identities) : g.HasKeyParents g.project id :=
  fun _ he _ hpath ↦ (isTextual_of_parent h hid he hpath).isKey

theorem hasKeyParents_of_isTextual (h : g.IsTextual) {id : EntityId}
    (hid : id ∈ g.project.identities) : g.HasKeyParents g.project id :=
  hasKeyParents_of_hasTextualParents h.parents hid

/-- The fault of a loop can be told if the parents that a lineage may come to are textual. -/
theorem all_isWritable_of_isLoop {id : EntityId}
    (h : ∀ e ∈ id :: Graph.named g.project, ∀ path, (g.entity e).parent = some path →
      path.IsTextual)
    {followed : List ElementPath} (hloop : g.IsLoop g.project id followed) :
    followed.all ElementPath.isWritable = true := by
  rw [List.all_eq_true]
  intro path hpath
  obtain ⟨i, hi⟩ := List.mem_iff_getElem?.mp hpath
  obtain ⟨e, he, hparent, -⟩ := hloop.paths i path hi
  exact (h e (Graph.mem_of_lineage he) path hparent).isWritable

theorem isWritable_of_isLoop (h : g.HasTextualParents) {id : EntityId}
    (hid : id ∈ g.project.identities) {followed : List ElementPath}
    (hloop : g.IsLoop g.project id followed) : followed.all ElementPath.isWritable = true :=
  all_isWritable_of_isLoop (fun _ he _ hparent ↦ isTextual_of_parent h hid he hparent) hloop

theorem reports_ofEntities (h : g.IsTextual) {entries : List (ElementPath × EntityId)}
    (hentries : ∀ entry ∈ entries, entry ∈ g.project.flatEntities) :
    ∃ issues, (ofEntities g entries).answer = .ok issues ∧
      Reports g (entries.flatMap fun e ↦ placesOf e.1 e.2 (g.entity e.2)) issues := by
  induction entries with
  | nil => exact ⟨[], rfl, .nil⟩
  | cons entry entries ih =>
    obtain ⟨owner, id⟩ := entry
    obtain ⟨howner, hid⟩ := isTextual_of_mem h (hentries _ List.mem_cons_self)
    obtain ⟨others, hothers, hrest⟩ := ih fun e he ↦ hentries e (List.mem_cons_of_mem _ he)
    obtain ⟨paths, hpaths, hreports⟩ : ∃ issues,
        ofPaths g.project owner (g.entity id) = .ok issues ∧
        Reports g (pathsOf owner id (g.entity id)) issues :=
      reports_ofPaths howner (h.entities id hid)
    obtain ⟨inheritance, hinheritance, hlineage⟩ : ∃ issues,
        (ofInheritance g owner id).answer = .ok issues ∧
        Reports g [⟨owner, id, .lineage⟩] issues :=
      reports_ofInheritance (hasKeyParents_of_isTextual h hid) fun _ hloop ↦
        isWritable_of_isLoop h.parents hid hloop
    refine ⟨paths ++ inheritance ++ others, ?_, ?_⟩
    · rw [ofEntities, Query.answer_bind, Query.answer_ofExcept, hpaths, ok_bind,
        Query.answer_bind, hinheritance, ok_bind, Query.answer_bind, hothers]
      rfl
    · rw [List.flatMap_cons]
      exact (hreports.append hlineage).append hrest

/-- Everything that an entity refers to is there and of the right kind, and its lineage ends. -/
structure IsIntact (g : Graph) (id : EntityId) : Prop where
  parent : ∀ path, (g.entity id).parent = some path → g.project.HasEntity path
  response : ∀ path, (g.entity id).response = some path → g.project.HasEntity path
  objects : ∀ f ∈ (g.entity id).fields ++ (g.entity id).bindings, ∀ path,
    f.2.type.core = .object path → g.project.HasEntity path
  enumerations : ∀ f ∈ (g.entity id).fields ++ (g.entity id).bindings, ∀ path,
    f.2.type.core = .enumeration path → g.project.HasEnumeration path
  lineage : g.Ends g.project id

theorem forall_isSound_placesOf_iff {owner : ElementPath} {id : EntityId}
    (hkeys : g.HasKeyParents g.project id) :
    (∀ place ∈ placesOf owner id (g.entity id), IsSound g place) ↔ IsIntact g id := by
  simp only [placesOf, pathsOf, membersOf, List.forall_mem_append, List.forall_mem_map,
    List.forall_mem_singleton, Option.mem_toList, isSound_parent_iff, isSound_response_iff,
    isSound_member_iff, isSound_lineage_iff hkeys]
  constructor
  · rintro ⟨⟨⟨⟨hparent, hresponse⟩, hfields⟩, hbindings⟩, hends⟩
    refine ⟨hparent, hresponse, ?_, ?_, hends⟩
    · rw [List.forall_mem_append]
      exact ⟨fun f hf ↦ (hfields f hf).1, fun f hf ↦ (hbindings f hf).1⟩
    · rw [List.forall_mem_append]
      exact ⟨fun f hf ↦ (hfields f hf).2, fun f hf ↦ (hbindings f hf).2⟩
  · intro h
    obtain ⟨hobjects, hobjects'⟩ := List.forall_mem_append.mp h.objects
    obtain ⟨henums, henums'⟩ := List.forall_mem_append.mp h.enumerations
    exact ⟨⟨⟨⟨h.parent, h.response⟩, fun f hf ↦ ⟨hobjects f hf, henums f hf⟩⟩,
      fun f hf ↦ ⟨hobjects' f hf, henums' f hf⟩⟩, h.lineage⟩

end Graph

end References

/-- The reference issues of a textual graph are one for each broken place, entity by entity in
document order. There are none exactly when everything that is referred to is there, of the right
kind, and every lineage ends. -/
theorem referenceIssues_reports {g : Graph} (h : g.IsTextual) :
    ∃ issues, (referenceIssues g).answer = .ok issues ∧
      References.Reports g (References.places g) issues ∧
      (issues = [] ↔ ∀ entry ∈ g.project.flatEntities, References.IsIntact g entry.2) := by
  obtain ⟨issues, hissues, hreports⟩ := References.reports_ofEntities h fun _ hentry ↦ hentry
  refine ⟨issues, hissues, hreports, ?_⟩
  rw [hreports.eq_nil_iff, List.forall_mem_flatMap]
  refine forall₂_congr fun entry hentry ↦ ?_
  have hid := (References.isTextual_of_mem h hentry).2
  exact References.forall_isSound_placesOf_iff (References.hasKeyParents_of_isTextual h hid)

/-! ## A graph with broken places -/

namespace References

/-- The first entity has an enumeration for a parent and a list of nothing in a field; the second is
its own parent. -/
def brokenGraph : Graph where
  project :=
    { modules := [(.str "m",
        { entities := [(.str "A", ⟨0⟩), (.str "B", ⟨1⟩)], enumerations := [(.str "E", {})] })] }
  pool :=
    [{ parent := some ⟨.str "m", .str "E"⟩
       fields := [(.str "f", { type := .list (.object ⟨.str "m", .null⟩) })] },
      { parent := some ⟨.str "m", .str "B"⟩ }]

theorem isTextual_brokenGraph : brokenGraph.IsTextual where
  modules := by simp [brokenGraph, Value.isText]
  names := by
    simp only [brokenGraph, List.forall_mem_singleton, List.forall_mem_cons]
    exact ⟨rfl, rfl⟩
  entities := by
    intro id hid
    have hid' : id = ⟨0⟩ ∨ id = ⟨1⟩ := by
      simpa [brokenGraph, Project.identities, Project.flatEntities] using hid
    rcases hid' with rfl | rfl
    · constructor
      · simp [brokenGraph, Graph.entity, ElementPath.IsTextual, Value.isText]
      · simp [brokenGraph, Graph.entity]
      · simp [brokenGraph, Graph.entity, FieldType.IsTextual, FieldType.core,
          ElementPath.IsTextual, Value.isText]
      · simp [brokenGraph, Graph.entity]
    · constructor
      · simp [brokenGraph, Graph.entity, ElementPath.IsTextual, Value.isText]
      · simp [brokenGraph, Graph.entity]
      · simp [brokenGraph, Graph.entity]
      · simp [brokenGraph, Graph.entity]

theorem referenceIssues_brokenGraph :
    brokenGraph.IsTextual ∧ ∃ issues, (referenceIssues brokenGraph).answer = .ok issues ∧
      Reports brokenGraph (places brokenGraph) issues ∧
      (issues = [] ↔ ∀ entry ∈ brokenGraph.project.flatEntities, IsIntact brokenGraph entry.2) :=
  ⟨isTextual_brokenGraph, referenceIssues_reports isTextual_brokenGraph⟩

end References

end EntityGraph
