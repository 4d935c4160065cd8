import EntityGraph.Proofs.Check.References
import EntityGraph.Proofs.Graph.Numbering
import EntityGraph.Proofs.Model.Reordering

/-!
# Graphs in another order

The entities of a project are numbered in the order of the document, so the graphs of a project and
of the same project in another order give them different numbers. `Linked` puts those numbers
together that stand under one path. It is one-to-one, and a path leads to linked entities in both
graphs or to nothing in either. So the walks to the ancestors go side by side: what they have
visited is linked place by place, which is the invariant that carries them to the same end, or to
the same fault.
-/

namespace EntityGraph

variable {α β γ δ ε ζ : Type}

/-! ## Answers that are alike -/

/-- Whether two computations answer with related answers, or meet the same fault. -/
def Alike (r : α → β → Prop) : Except Fault α → Except Fault β → Prop
  | .ok a, .ok b => r a b
  | .error fault, .error fault' => fault = fault'
  | _, _ => False

namespace Alike

variable {r : α → β → Prop} {q : γ → δ → Prop} {x : Except Fault α} {y : Except Fault β}

theorem bind {f : α → Except Fault γ} {g : β → Except Fault δ} (h : Alike r x y)
    (hfg : ∀ a b, x = .ok a → r a b → Alike q (f a) (g b)) : Alike q (x >>= f) (y >>= g) := by
  cases x with
  | error fault =>
    cases y with
    | error fault' => exact h
    | ok b => exact h.elim
  | ok a =>
    cases y with
    | error fault' => exact h.elim
    | ok b => exact hfg a b rfl h

theorem imp {r' : α → β → Prop} (h : Alike r x y) (hr : ∀ a b, r a b → r' a b) :
    Alike r' x y := by
  cases x with
  | error fault =>
    cases y with
    | error fault' => exact h
    | ok b => exact h.elim
  | ok a =>
    cases y with
    | error fault' => exact h.elim
    | ok b => exact hr a b h

theorem agree (h : Alike r x y) (hx : ∃ a, x = .ok a) : Agree r x y := by
  obtain ⟨a, rfl⟩ := hx
  cases y with
  | error fault => exact h.elim
  | ok b => exact .ok h

theorem of_eq {x y : Except Fault α} (h : x = y) : Alike Eq x y := by
  rw [h]
  cases y with
  | error fault => exact rfl
  | ok a => exact rfl

theorem eq {x y : Except Fault α} (h : Alike Eq x y) : x = y := by
  cases x with
  | error fault =>
    cases y with
    | error fault' => rw [show fault = fault' from h]
    | ok b => exact h.elim
  | ok a =>
    cases y with
    | error fault' => exact h.elim
    | ok b => rw [show a = b from h]

end Alike

/-! ## Tables and projects -/

namespace Table.Reordered

variable {r : α → β → Prop} {s : Table α} {t : Table β}

theorem names_right (h : Table.Reordered r s t) : t.HasTextNames :=
  h.items.hasTextNames (fun _ _ hentry ↦ hentry.1) h.names

theorem imp {r' : α → β → Prop} (h : Table.Reordered r s t)
    (hr : ∀ n a b, (n, a) ∈ s → (n, b) ∈ t → r a b → r' a b) : Table.Reordered r' s t := by
  refine ⟨h.names, h.items.mem.imp ?_⟩
  rintro ⟨n, a⟩ ⟨m, b⟩ ⟨ha, hb, rfl, hab⟩
  exact ⟨rfl, hr n a b ha hb hab⟩

theorem of_mapItems {f : γ → α} {g : δ → β} {s : Table γ} {t : Table δ}
    (h : Table.Reordered r (s.mapItems f) (t.mapItems g)) :
    Table.Reordered (fun a b ↦ r (f a) (g b)) s t := by
  have hnames : (s.mapItems f).names = s.names := by
    rw [Table.names, mapItems, List.map_map]
    rfl
  refine ⟨⟨?_, ?_⟩, h.items.of_map⟩
  · rw [← hnames]
    exact h.names.texts
  · rw [← hnames]
    exact h.names.nodup

/-- Looking up a name leads to related items, to nothing in either table, or to the same fault. -/
theorem alike_get (h : Table.Reordered r s t) (name : Value) :
    Alike (Option.Rel r) (s.get name) (t.get name) := by
  rw [get, get]
  by_cases hkey : name.isKey = true
  · rw [if_pos hkey, if_pos hkey]
    have hfind := h.items.find? (fun _ _ hentry ↦ hentry.1) h.names name
    generalize s.find? name = found at hfind ⊢
    generalize t.find? name = found' at hfind ⊢
    cases hfind with
    | none => exact Option.Rel.none
    | some hentry => exact Option.Rel.some hentry.2
  · rw [if_neg hkey, if_neg hkey]
    rfl

end Table.Reordered

namespace Project

/-- Whether the names of the modules and of the entities in them are texts that differ. -/
structure HasTextNames (p : Project ε) : Prop where
  modules : p.modules.HasTextNames
  entities : ∀ m ∈ p.modules, m.2.entities.HasTextNames

/-- What stands under a path is what the path leads to. -/
theorem HasTextNames.findEntity_of_mem {p : Project ε} (h : p.HasTextNames) {path : ElementPath}
    {e : ε} (hmem : (path, e) ∈ p.flatEntities) : p.findEntity path = .ok (some e) := by
  obtain ⟨⟨moduleName, m⟩, hm, hentry⟩ := List.mem_flatMap.mp hmem
  obtain ⟨⟨name, item⟩, hitem, heq⟩ := List.mem_map.mp hentry
  cases heq
  have hmodule : moduleName.isText = true := h.modules.isText_of_mem hm
  have hname : name.isText = true := (h.entities _ hm).isText_of_mem hitem
  have hcomplete : (⟨moduleName, name⟩ : ElementPath).isComplete = true := by
    obtain ⟨t, rfl⟩ := Value.isText_iff.mp hmodule
    obtain ⟨u, rfl⟩ := Value.isText_iff.mp hname
    rfl
  rw [findEntity, if_pos hcomplete, Table.get, if_pos (Value.isKey_of_isText hmodule), ok_bind,
    h.modules.find?_eq_some_iff.mpr hm]
  dsimp only
  rw [Table.get, if_pos (Value.isKey_of_isText hname),
    (h.entities _ hm).find?_eq_some_iff.mpr hitem]

namespace Reordered

variable {r : ε → ζ → Prop} {p : Project ε} {q : Project ζ}

theorem hasTextNames (h : p.Reordered r q) : p.HasTextNames where
  modules := h.names
  entities := by
    intro m hm
    obtain ⟨n, -, -, hmodule⟩ := h.items.exists_right hm
    exact hmodule.entities.names

theorem hasTextNames_right (h : p.Reordered r q) : q.HasTextNames where
  modules := h.names_right
  entities := by
    intro n hn
    obtain ⟨m, -, -, hmodule⟩ := h.items.exists_left hn
    exact hmodule.entities.names_right

theorem flatEntities (h : p.Reordered r q) :
    Rearranged (Entrywise r) p.flatEntities q.flatEntities := by
  refine h.items.flatMap fun m n hmodule ↦ ?_
  refine hmodule.2.entities.items.map fun e f hentry ↦ ⟨?_, hentry.2⟩
  rw [hmodule.1, hentry.1]

theorem flatEnumerations (h : p.Reordered r q) :
    Rearranged (Entrywise fun a b ↦ a.same b = true) p.flatEnumerations q.flatEnumerations := by
  refine h.items.flatMap fun m n hmodule ↦ ?_
  refine hmodule.2.enumerations.items.map fun e f hentry ↦ ⟨?_, hentry.2⟩
  rw [hmodule.1, hentry.1]

/-- Related entities stand under the same path. -/
theorem linked (h : p.Reordered r q) :
    p.Reordered (fun a b ↦ r a b ∧ ∃ path, (path, a) ∈ p.flatEntities ∧ (path, b) ∈ q.flatEntities)
      q := by
  refine h.imp fun moduleName m n hm hn hmodule ↦ ⟨?_, hmodule.enumerations⟩
  refine hmodule.entities.imp fun name a b ha hb hab ↦ ⟨hab, ⟨moduleName, name⟩, ?_, ?_⟩
  · exact List.mem_flatMap.mpr ⟨_, hm, List.mem_map.mpr ⟨_, ha, rfl⟩⟩
  · exact List.mem_flatMap.mpr ⟨_, hn, List.mem_map.mpr ⟨_, hb, rfl⟩⟩

/-- If the same is said of two projects, their entities say it. -/
theorem of_map {f : α → ε} {g : β → ζ} {p : Project α} {q : Project β}
    (h : (p.map f).Reordered r (q.map g)) : p.Reordered (fun a b ↦ r (f a) (g b)) q := by
  refine (Table.Reordered.of_mapItems h).imp fun _ m n _ _ hmodule ↦ ?_
  exact ⟨hmodule.entities.of_mapItems, hmodule.enumerations⟩

/-- A path leads to related entries of any two tables of the modules, if these are related. -/
theorem alike_find {r' : α → β → Prop} {table : Module ε → Table α} {table' : Module ζ → Table β}
    (h : p.Reordered r q)
    (htable : ∀ m n, m.Reordered r n → Table.Reordered r' (table m) (table' n))
    (path : ElementPath) :
    Alike (Option.Rel r')
      (if path.isComplete then do
        match ← p.modules.get path.moduleName with
        | none => return none
        | some m => (table m).get path.name
      else return none)
      (if path.isComplete then do
        match ← q.modules.get path.moduleName with
        | none => return none
        | some n => (table' n).get path.name
      else return none) := by
  by_cases hcomplete : path.isComplete = true
  · rw [if_pos hcomplete, if_pos hcomplete]
    refine (h.alike_get path.moduleName).bind fun found found' _ hfound ↦ ?_
    cases hfound with
    | none => exact Option.Rel.none
    | some hmodule => exact (htable _ _ hmodule).alike_get path.name
  · rw [if_neg hcomplete, if_neg hcomplete]
    exact Option.Rel.none

theorem alike_findEntity (h : p.Reordered r q) (path : ElementPath) :
    Alike (Option.Rel r) (p.findEntity path) (q.findEntity path) :=
  h.alike_find (fun _ _ hmodule ↦ hmodule.entities) path

theorem alike_findEnumeration (h : p.Reordered r q) (path : ElementPath) :
    Alike (Option.Rel fun a b ↦ a.same b = true) (p.findEnumeration path)
      (q.findEnumeration path) :=
  h.alike_find (fun _ _ hmodule ↦ hmodule.enumerations) path

end Reordered

end Project

/-! ## Numbers -/

namespace Graph

theorem identities_numberEntities (start : Nat) (t : Table Entity) :
    (numberEntities start t).map (·.2) = (List.range' start t.length).map EntityId.mk := by
  induction t generalizing start with
  | nil => rfl
  | cons e t ih =>
    obtain ⟨name, entity⟩ := e
    rw [numberEntities, List.length_cons, List.range'_succ, List.map_cons, List.map_cons, ih]

/-- Numbers are given in order, and each once. -/
theorem exists_identities_numberModules (start : Nat) (ms : Table (Module Entity)) :
    ∃ n, ((numberModules start ms).flatMap fun m ↦ m.2.entities.map (·.2)) =
      (List.range' start n).map EntityId.mk := by
  induction ms generalizing start with
  | nil => exact ⟨0, rfl⟩
  | cons m ms ih =>
    obtain ⟨name, m⟩ := m
    obtain ⟨n, hrest⟩ := ih (start + m.entities.length)
    refine ⟨m.entities.length + n, ?_⟩
    rw [numberModules, List.flatMap_cons, hrest, numberModule, identities_numberEntities,
      ← List.map_append, List.range'_append_1]

theorem nodup_identities_ofProject (p : Project Entity) :
    (ofProject p).project.identities.Nodup := by
  have hids : (ofProject p).project.identities =
      (numberModules 0 p.modules).flatMap fun m ↦ m.2.entities.map (·.2) := by
    rw [Project.identities, Project.flatEntities, List.map_flatMap]
    refine List.flatMap_congr fun m _ ↦ ?_
    rw [List.map_map]
    rfl
  obtain ⟨n, hn⟩ := exists_identities_numberModules 0 p.modules
  rw [hids, hn]
  refine (List.nodup_range').map ?_
  intro i j hij
  cases hij
  rfl

/-! ## Linked entities -/

/-- Two entities of two graphs that stand under the same path and are the same in some order. -/
structure Linked (g g' : Graph) (id id' : EntityId) : Prop where
  entity : (g.entity id).Reordered (g'.entity id')
  path : ∃ path, (path, id) ∈ g.project.flatEntities ∧ (path, id') ∈ g'.project.flatEntities

/-- A graph and the same graph in another order: their modules say the same, with linked entities,
and no entity stands under two paths. -/
structure Reordered (g g' : Graph) : Prop where
  project : g.project.Reordered (Linked g g') g'.project
  distinct : g.project.identities.Nodup
  distinct' : g'.project.identities.Nodup

/-- The graph of a project and the graph of the project in another order. -/
theorem reordered_ofProject {p q : Project Entity} (h : p.Reordered Entity.Reordered q) :
    (ofProject p).Reordered (ofProject q) := by
  have hsaid : (ofProject p).toProject.Reordered Entity.Reordered (ofProject q).toProject := by
    rw [toProject_ofProject, toProject_ofProject]
    exact h
  have hlinked : (ofProject p).project.Reordered
      (fun id id' ↦ ((ofProject p).entity id).Reordered ((ofProject q).entity id'))
      (ofProject q).project := Project.Reordered.of_map hsaid
  refine ⟨?_, nodup_identities_ofProject p, nodup_identities_ofProject q⟩
  refine hlinked.linked.imp fun _ m n _ _ hmodule ↦ ⟨?_, hmodule.enumerations⟩
  exact hmodule.entities.imp fun _ _ _ _ _ hboth ↦ ⟨hboth.1, hboth.2⟩

/-- The path of an entity that stands under one path only. -/
theorem pathOf?_of_mem {g : Graph} (h : g.project.identities.Nodup) {path : ElementPath}
    {id : EntityId} (hmem : (path, id) ∈ g.project.flatEntities) : g.pathOf? id = some path := by
  have hfind : g.project.flatEntities.find? (fun e ↦ e.2 = id) = some (path, id) := by
    rw [Project.identities] at h
    generalize g.project.flatEntities = entries at h hmem ⊢
    induction entries with
    | nil => cases hmem
    | cons e entries ih =>
      obtain ⟨hnew, hrest⟩ := List.nodup_cons.mp h
      rw [List.find?_cons]
      rcases List.mem_cons.mp hmem with rfl | hmem
      · simp
      · have hother : e.2 ≠ id := by
          rintro rfl
          exact hnew (List.mem_map_of_mem (f := fun e ↦ e.2) hmem)
        simp only [decide_eq_false hother]
        exact ih hrest hmem
  rw [pathOf?, hfind]
  rfl

namespace Reordered

variable {g g' : Graph} {id id' : EntityId}

theorem pathOf?_eq (h : g.Reordered g') (hid : g.Linked g' id id') :
    g.pathOf? id = g'.pathOf? id' := by
  obtain ⟨path, hmem, hmem'⟩ := hid.path
  rw [pathOf?_of_mem h.distinct hmem, pathOf?_of_mem h.distinct' hmem']

/-- Linking is one-to-one. -/
theorem eq_iff (h : g.Reordered g') {jd jd' : EntityId} (hid : g.Linked g' id id')
    (hjd : g.Linked g' jd jd') : id = jd ↔ id' = jd' := by
  obtain ⟨path, hmem, hmem'⟩ := hid.path
  obtain ⟨other, hother, hother'⟩ := hjd.path
  constructor
  · rintro rfl
    have hpath := pathOf?_of_mem h.distinct hmem
    rw [pathOf?_of_mem h.distinct hother] at hpath
    cases hpath
    have hfind := h.project.hasTextNames_right.findEntity_of_mem hmem'
    rw [h.project.hasTextNames_right.findEntity_of_mem hother'] at hfind
    cases hfind
    rfl
  · rintro rfl
    have hpath := pathOf?_of_mem h.distinct' hmem'
    rw [pathOf?_of_mem h.distinct' hother'] at hpath
    cases hpath
    have hfind := h.project.hasTextNames.findEntity_of_mem hmem
    rw [h.project.hasTextNames.findEntity_of_mem hother] at hfind
    cases hfind
    rfl

theorem mem_iff (h : g.Reordered g') {ids ids' : List EntityId}
    (hids : List.Forall₂ (g.Linked g') ids ids') (hid : g.Linked g' id id') :
    id ∈ ids ↔ id' ∈ ids' := by
  induction hids with
  | nil => exact iff_of_false List.not_mem_nil List.not_mem_nil
  | cons hfirst _ ih => rw [List.mem_cons, List.mem_cons, h.eq_iff hid hfirst, ih]

theorem mem_identities (hid : g.Linked g' id id') : id ∈ g.project.identities := by
  obtain ⟨path, hmem, -⟩ := hid.path
  exact List.mem_map_of_mem (f := fun e ↦ e.2) hmem

end Reordered

end Graph

/-! ## Paths that are texts -/

theorem Value.eq_of_same_of_isTextual {v w : Value} (hv : v = .null ∨ v.isText = true)
    (h : v.same w = true) : w = v := by
  rcases hv with rfl | hv
  · cases w <;> simp [same, number?] at h
    rfl
  · obtain ⟨t, rfl⟩ := isText_iff.mp hv
    cases w <;> simp [same, number?] at h
    rw [h]

theorem ElementPath.eq_of_same {p q : ElementPath} (hp : p.IsTextual) (h : p.same q = true) :
    q = p := by
  rw [ElementPath.same, Bool.and_eq_true] at h
  obtain ⟨moduleName, name⟩ := p
  obtain ⟨moduleName', name'⟩ := q
  cases Value.eq_of_same_of_isTextual hp.1 h.1
  cases Value.eq_of_same_of_isTextual hp.2 h.2
  rfl

theorem ElementPath.eq_of_rel {p q : Option ElementPath}
    (hp : ∀ path, p = some path → path.IsTextual)
    (h : Option.Rel (fun a b ↦ a.same b = true) p q) : q = p := by
  cases h with
  | none => rfl
  | some hsame => rw [ElementPath.eq_of_same (hp _ rfl) hsame]

/-! ## Ancestors -/

namespace Graph

section Steps

variable {g : Graph} {project : Option (Project EntityId)} {id : EntityId} {below : List EntityId}
  {followed : List ElementPath}

theorem answer_climb_of_none (h : (g.entity id).parent = none) :
    (g.climb project id below followed).answer = .ok (id :: below) := by
  rw [climb]
  split
  next => rfl
  next path hpath => cases h.symm.trans hpath

/-- One step of the walk, from an entity that has a parent path. -/
theorem answer_climb_of_some {path : ElementPath} (h : (g.entity id).parent = some path) :
    (g.climb project id below followed).answer = (do
      match ← follow project path with
      | none => .ok (id :: below)
      | some parent =>
        if parent ∈ id :: below then .error (.cyclic (followed ++ [path]))
        else (g.climb project parent (id :: below) (followed ++ [path])).answer) := by
  rw [climb]
  split
  next hnone => cases h.symm.trans hnone
  next path' hpath =>
    cases h.symm.trans hpath
    split
    next fault hfault =>
      rw [hfault]
      rfl
    next hnone =>
      rw [hnone]
      rfl
    next parent hparent =>
      rw [hparent, ok_bind]
      dsimp only
      split
      next => rfl
      next => rfl

end Steps

namespace Reordered

variable {g g' : Graph} {id id' : EntityId}

theorem parent_eq (hparents : g.HasTextualParents) (hid : g.Linked g' id id') :
    (g'.entity id').parent = (g.entity id).parent :=
  ElementPath.eq_of_rel (hparents id (mem_identities hid)) hid.entity.parent

/-- The walks go side by side: what they have visited is linked, and the paths are the same. -/
theorem alike_climb (h : g.Reordered g') (hparents : g.HasTextualParents)
    {id id' : EntityId} {below below' : List EntityId} {followed : List ElementPath}
    (hid : g.Linked g' id id')
    (hbelow : List.Forall₂ (g.Linked g') below below') :
    Alike (List.Forall₂ (g.Linked g')) (g.climb (some g.project) id below followed).answer
      (g'.climb (some g'.project) id' below' followed).answer := by
  cases hpath : (g.entity id).parent with
  | none =>
    rw [answer_climb_of_none hpath, answer_climb_of_none ((parent_eq hparents hid).trans hpath)]
    exact .cons hid hbelow
  | some path =>
    have hfollow : Alike (Option.Rel (g.Linked g')) (follow (some g.project) path)
        (follow (some g'.project) path) := h.project.alike_findEntity path
    rw [answer_climb_of_some hpath, answer_climb_of_some ((parent_eq hparents hid).trans hpath)]
    refine hfollow.bind fun found found' hfound hrel ↦ ?_
    cases hrel with
    | none => exact .cons hid hbelow
    | @some parent parent' hparent =>
      have hmem := h.mem_iff (.cons hid hbelow) hparent
      dsimp only
      by_cases hold : parent ∈ id :: below
      · rw [if_pos hold, if_pos (hmem.mp hold)]
        rfl
      · rw [if_neg hold, if_neg (mt hmem.mpr hold)]
        -- The parent is new to the walk, which has fewer entities left to visit.
        exact h.alike_climb hparents hparent (.cons hid hbelow)
termination_by (unvisited (named (some g.project)) (id :: below)).length
decreasing_by exact length_unvisited_lt (mem_named_of_follow hfound) hold

theorem alike_ancestors (h : g.Reordered g') (hparents : g.HasTextualParents)
    (hid : g.Linked g' id id') :
    Alike (List.Forall₂ (g.Linked g')) (g.ancestors (some g.project) id).answer
      (g'.ancestors (some g'.project) id').answer :=
  h.alike_climb hparents hid .nil

end Reordered

end Graph

/-! ## Generic parameters -/

/-- The parameter that a type stands for. -/
def FieldType.parameter? : FieldType → Option Value
  | .unknown parameter => some parameter
  | _ => none

theorem Entity.localGenerics_eq (e : Entity) :
    e.localGenerics = e.fields.filterMap fun f ↦ f.2.type.parameter? := rfl

/-- The parameters that the local fields of an entity mention are texts. -/
def Entity.HasTextGenerics (e : Entity) : Prop :=
  ∀ parameter ∈ e.localGenerics, parameter.isText = true

theorem Field.same_type {f g : Field} (h : f.same g = true) : f.type.same g.type = true := by
  simp only [Field.same, Bool.and_eq_true] at h
  exact h.1.1.1.1.1

/-- A parameter that is a text is the parameter of the same type too. -/
theorem FieldType.parameter?_eq {t u : FieldType} (h : t.same u = true)
    (htext : ∀ a, t.parameter? = some a → a.isText = true) : u.parameter? = t.parameter? := by
  cases t with
  | unknown a =>
    cases u with
    | unknown b => exact congrArg some (Value.eq_of_same_of_isTextual (Or.inr (htext a rfl)) h)
    | _ => cases h
  | _ =>
    cases u with
    | unknown b => cases h
    | _ => rfl

theorem localGenerics_eq_of_forall₂ {fields fields' : Table Field}
    (h : List.Forall₂ (Entrywise fun a b ↦ a.same b = true) fields fields')
    (htext : ∀ f ∈ fields, ∀ a, f.2.type.parameter? = some a → a.isText = true) :
    (fields.filterMap fun f ↦ f.2.type.parameter?) =
      fields'.filterMap fun f ↦ f.2.type.parameter? := by
  induction h with
  | nil => rfl
  | cons hentry _ ih =>
    obtain ⟨hfirst, hrest⟩ := List.forall_mem_cons.mp htext
    rw [List.filterMap_cons, List.filterMap_cons, ih hrest,
      FieldType.parameter?_eq (Field.same_type hentry.2) hfirst]

theorem Entity.Reordered.localGenerics_eq {e f : Entity} (h : e.Reordered f)
    (htext : e.HasTextGenerics) : e.localGenerics = f.localGenerics := by
  rw [e.localGenerics_eq, f.localGenerics_eq]
  refine localGenerics_eq_of_forall₂ h.fields fun field hfield a ha ↦ htext a ?_
  rw [e.localGenerics_eq]
  exact List.mem_filterMap.mpr ⟨field, hfield, ha⟩

namespace Graph

/-- Tables of the same names leave the same names unbound. -/
theorem unbound_eq_of_reordered {r : Field → Field → Prop} {s t : Table Field}
    (h : Table.Reordered r s t) (parameters : List Value) :
    unbound s parameters = unbound t parameters := by
  induction parameters with
  | nil => rfl
  | cons parameter rest ih =>
    rw [unbound, unbound, ih]
    refine Alike.eq ((h.alike_get parameter).bind fun found found' _ hfound ↦ ?_)
    cases hfound with
    | none => exact Alike.of_eq rfl
    | some _ => exact Alike.of_eq rfl

namespace Reordered

variable {g g' : Graph} {id id' : EntityId}

/-- What is open after linked entities is the same. -/
theorem openAfter_eq (hgenerics : ∀ id ∈ g.project.identities, (g.entity id).HasTextGenerics)
    {chain chain' : List EntityId} (h : List.Forall₂ (g.Linked g') chain chain')
    (names : List Value) : g.openAfter names chain = g'.openAfter names chain' := by
  induction h generalizing names with
  | nil => rfl
  | @cons id id' rest rest' hid _ ih =>
    rw [openAfter, openAfter, unbound_eq_of_reordered hid.entity.bindings,
      hid.entity.localGenerics_eq (hgenerics id (mem_identities hid))]
    exact congrArg _ (funext fun still ↦ ih still)

/-- The generic parameters that are open at linked entities are the same, or the fault is. -/
theorem answer_unsolvedGenerics_eq (h : g.Reordered g') (hparents : g.HasTextualParents)
    (hgenerics : ∀ id ∈ g.project.identities, (g.entity id).HasTextGenerics)
    (hid : g.Linked g' id id') :
    (g.unsolvedGenerics (some g.project) id).answer =
      (g'.unsolvedGenerics (some g'.project) id').answer := by
  rw [unsolvedGenerics, unsolvedGenerics, Query.answer_bind, Query.answer_bind]
  refine Alike.eq ((h.alike_ancestors hparents hid).bind fun chain chain' _ hchain ↦ ?_)
  rw [Query.answer_ofExcept, Query.answer_ofExcept]
  exact Alike.of_eq (openAfter_eq hgenerics hchain [])

end Reordered

/-! ## Inherited fields -/

section Fields

variable {r : Field → Field → Prop} {s t : Table Field}

/-- A field is put in the same place of tables with the same names. -/
theorem forall₂_insert (h : List.Forall₂ (Entrywise r) s t) (name : Value) {a b : Field}
    (hab : r a b) : List.Forall₂ (Entrywise r) (Table.insert s name a) (Table.insert t name b) := by
  induction h with
  | nil => exact .cons ⟨rfl, hab⟩ .nil
  | @cons e f rest rest' hentry hrest ih =>
    obtain ⟨n, i⟩ := e
    obtain ⟨n', i'⟩ := f
    obtain ⟨hname, hitem⟩ := hentry
    cases hname
    rw [Table.insert, Table.insert]
    by_cases hsame : name.same n = true
    · rw [if_pos hsame, if_pos hsame]
      exact .cons ⟨rfl, hab⟩ hrest
    · rw [if_neg hsame, if_neg hsame]
      exact .cons ⟨rfl, hitem⟩ ih

theorem forall₂_foldl_insert {fields fields' : Table Field}
    (h : List.Forall₂ (Entrywise r) fields fields') (hst : List.Forall₂ (Entrywise r) s t) :
    List.Forall₂ (Entrywise r) (fields.foldl (fun t f ↦ Table.insert t f.1 f.2) s)
      (fields'.foldl (fun t f ↦ Table.insert t f.1 f.2) t) := by
  induction h generalizing s t with
  | nil => exact hst
  | @cons e f _ _ hentry _ ih =>
    rw [List.foldl_cons, List.foldl_cons, ← hentry.1]
    exact ih (forall₂_insert hst e.1 hentry.2)

end Fields

namespace Reordered

variable {g g' : Graph} {id id' : EntityId}

/-- Linked chains have the same fields, one by one. -/
theorem forall₂_mergedFields {chain chain' : List EntityId}
    (h : List.Forall₂ (g.Linked g') chain chain') :
    List.Forall₂ (Entrywise fun a b ↦ a.same b = true) (g.mergedFields chain)
      (g'.mergedFields chain') := by
  have hfold : ∀ s t : Table Field, List.Forall₂ (Entrywise fun a b ↦ a.same b = true) s t →
      List.Forall₂ (Entrywise fun a b ↦ a.same b = true)
        (chain.foldl (fun table id ↦
          (g.entity id).fields.foldl (fun t f ↦ Table.insert t f.1 f.2) table) s)
        (chain'.foldl (fun table id ↦
          (g'.entity id).fields.foldl (fun t f ↦ Table.insert t f.1 f.2) table) t) := by
    induction h with
    | nil => exact fun _ _ hst ↦ hst
    | cons hid _ ih =>
      intro s t hst
      exact ih _ _ (forall₂_foldl_insert hid.entity.fields hst)
  exact hfold [] [] .nil

theorem alike_allFields (h : g.Reordered g') (hparents : g.HasTextualParents)
    (hid : g.Linked g' id id') :
    Alike (List.Forall₂ (Entrywise fun a b ↦ a.same b = true))
      (g.allFields (some g.project) id).answer (g'.allFields (some g'.project) id').answer := by
  rw [allFields, allFields, Query.answer_bind, Query.answer_bind]
  exact (h.alike_ancestors hparents hid).bind fun _ _ _ hchain ↦ forall₂_mergedFields hchain

end Reordered

/-! ## What is asked of an entity -/

/-- Two graphs tell the same of two entities: the path, the paths of the ancestors or the paths of
the same cycle, the open generic parameters, and the fields with those inherited, which are the same
one by one. -/
structure TellSame (g g' : Graph) (id id' : EntityId) : Prop where
  path : g.pathOf? id = g'.pathOf? id'
  ancestors :
    Agree (fun chain chain' ↦ chain.map g.pathOf? = chain'.map g'.pathOf?)
      (g.ancestors (some g.project) id).answer (g'.ancestors (some g'.project) id').answer ∨
    ∃ followed,
      (g.ancestors (some g.project) id).answer = .error (.cyclicInheritance followed) ∧
      (g'.ancestors (some g'.project) id').answer = .error (.cyclicInheritance followed)
  generics : (g.unsolvedGenerics (some g.project) id).answer =
    (g'.unsolvedGenerics (some g'.project) id').answer
  fields : Alike (List.Forall₂ (Entrywise fun a b ↦ a.same b = true))
    (g.allFields (some g.project) id).answer (g'.allFields (some g'.project) id').answer

namespace Reordered

variable {g g' : Graph} {id id' : EntityId}

theorem map_pathOf?_eq (h : g.Reordered g') {chain chain' : List EntityId}
    (hchain : List.Forall₂ (g.Linked g') chain chain') :
    chain.map g.pathOf? = chain'.map g'.pathOf? := by
  induction hchain with
  | nil => rfl
  | cons hid _ ih => rw [List.map_cons, List.map_cons, h.pathOf?_eq hid, ih]

/-- The chains of linked entities have the same paths, or both come back along the same ones. -/
theorem ancestors_cases (h : g.Reordered g') (hparents : g.HasTextualParents)
    (hid : g.Linked g' id id') :
    Agree (fun chain chain' ↦ chain.map g.pathOf? = chain'.map g'.pathOf?)
      (g.ancestors (some g.project) id).answer (g'.ancestors (some g'.project) id').answer ∨
    ∃ followed,
      (g.ancestors (some g.project) id).answer = .error (.cyclicInheritance followed) ∧
      (g'.ancestors (some g'.project) id').answer = .error (.cyclicInheritance followed) := by
  have hmem := mem_identities hid
  have hwalk := (h.alike_ancestors hparents hid).imp fun _ _ hchain ↦ h.map_pathOf?_eq hchain
  rcases answer_ancestors (References.hasKeyParents_of_hasTextualParents hparents hmem) with
    ⟨chain, hchain, -⟩ | ⟨loop, hfault, hloop⟩
  · exact Or.inl (hwalk.agree ⟨chain, hchain⟩)
  · refine Or.inr ⟨loop, ?_⟩
    rw [Fault.cyclic, if_pos (References.isWritable_of_isLoop hparents hmem hloop)] at hfault
    rw [hfault] at hwalk ⊢
    cases hother : (g'.ancestors (some g'.project) id').answer with
    | ok chain' =>
      rw [hother] at hwalk
      exact hwalk.elim
    | error fault' =>
      rw [hother] at hwalk
      exact ⟨rfl, congrArg Except.error (Eq.symm hwalk)⟩

/-- Linked entities tell the same. -/
theorem tellSame (h : g.Reordered g') (hparents : g.HasTextualParents)
    (hgenerics : ∀ id ∈ g.project.identities, (g.entity id).HasTextGenerics)
    (hid : g.Linked g' id id') : g.TellSame g' id id' where
  path := h.pathOf?_eq hid
  ancestors := h.ancestors_cases hparents hid
  generics := h.answer_unsolvedGenerics_eq hparents hgenerics hid
  fields := h.alike_allFields hparents hid

/-- A path leads to entities that tell the same, or to none in either graph. -/
theorem alike_findEntity (h : g.Reordered g') (hparents : g.HasTextualParents)
    (hgenerics : ∀ id ∈ g.project.identities, (g.entity id).HasTextGenerics)
    (path : ElementPath) :
    Alike (Option.Rel (g.TellSame g')) (g.project.findEntity path)
      (g'.project.findEntity path) := by
  refine (h.project.alike_findEntity path).imp fun found found' hfound ↦ ?_
  cases hfound with
  | none => exact .none
  | some hid => exact .some (h.tellSame hparents hgenerics hid)

end Reordered

end Graph

end EntityGraph
