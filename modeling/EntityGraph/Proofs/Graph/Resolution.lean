import EntityGraph.Proofs.Check.References
import EntityGraph.Proofs.Graph.Changes
import EntityGraph.Proofs.Model.Isolation
import EntityGraph.Proofs.Value.Equality

/-!
# Listing and resolving

A project can be asked in two ways for what it names: all of it can be listed with its paths, and a
path can be followed to what it leads to. The list goes through the modules and their tables in
order, the resolution looks up two names one after the other, and neither knows of the other. They
agree because no name of a table is there twice: a name that is looked up leads to the first entry
of that name, and the list has no other.

That the names of every table differ holds of a graph that was made from a document and is kept by
whatever is changed in it afterwards: an item that is put in takes the place of the one it replaces
or comes last under a new name, and taking one away leaves the others as they are. What the names
are does not matter for this. Only where they are texts, though, is a name that is the same as
another one equal to it.
-/

namespace EntityGraph

/-! ## Tables whose names differ -/

namespace Table

variable {α : Type} {t : Table α}

/-- An item that is put in replaces another one or brings a name that was not there. -/
theorem areNames_insert (h : Value.areNames t.names = true) {name : Value}
    (hname : name.isKey = true) (item : α) : Value.areNames (t.insert name item).names = true := by
  rw [names_insert]
  split
  next => exact h
  next hmissing =>
    have hnew : ∀ n ∈ t.names, name.same n = false := by
      simpa [find?, names] using hmissing
    obtain ⟨hpairs, hkeys⟩ := Value.areNames_iff.mp h
    rw [Value.areNames_iff, List.pairwise_append, List.forall_mem_append]
    refine ⟨⟨hpairs, List.pairwise_singleton _ _, fun n hn m hm ↦ ?_⟩, hkeys, ?_⟩
    · rw [List.mem_singleton.mp hm, Value.same_comm (hkeys n hn)]
      exact hnew n hn
    · rw [List.forall_mem_singleton]
      exact hname

/-- Names that are left out do not matter to the others. -/
theorem areNames_of_sublist {names others : List Value} (h : Value.areNames others = true)
    (hsub : names.Sublist others) : Value.areNames names = true := by
  obtain ⟨hpairs, hkeys⟩ := Value.areNames_iff.mp h
  exact Value.areNames_iff.mpr ⟨hpairs.sublist hsub, fun n hn ↦ hkeys n (hsub.subset hn)⟩

theorem areNames_erase (h : Value.areNames t.names = true) (name : Value) :
    Value.areNames (t.erase name).names = true :=
  areNames_of_sublist h ((erase_sublist t name).map _)

section Children

variable {kind : NodeKind} {load : Value → Query (Option α)} {v : Value}

/-- The names of children are keys of the mapping that they were loaded from. -/
theorem areNames_of_loadChildren (hkeys : v.keysDiffer = true)
    (h : (loadChildren kind load v).answer = .ok t) : Value.areNames t.names = true := by
  cases v with
  | map entries =>
    obtain ⟨hpairs, hparts⟩ := Value.entryKeysDiffer_iff.mp hkeys
    refine areNames_of_sublist ?_ (names_sublist_of_loadEntries h)
    rw [Value.areNames_iff, names, List.pairwise_map, List.forall_mem_map]
    exact ⟨hpairs, fun e he ↦ (hparts e he).1⟩
  | _ =>
    rw [← Except.ok.inj h]
    rfl

/-- And each of them was loaded from a value of that mapping. -/
theorem exists_load_of_mem_loadChildren (hkeys : v.keysDiffer = true)
    (h : (loadChildren kind load v).answer = .ok t) {e : Value × α} (he : e ∈ t) :
    ∃ w : Value, w.keysDiffer = true ∧ (load w).answer = .ok (some e.2) := by
  cases v with
  | map entries =>
    obtain ⟨entry, hentry, -, hload⟩ := exists_entry_of_mem_loadEntries h e he
    exact ⟨entry.2, ((Value.entryKeysDiffer_iff.mp hkeys).2 entry hentry).2, hload⟩
  | _ =>
    rw [← Except.ok.inj h] at he
    exact absurd he List.not_mem_nil

end Children

/-- Names that differ as names do differ as texts. -/
theorem hasTextNames_of_areNames (h : Value.areNames t.names = true)
    (htexts : ∀ e ∈ t, e.1.isText = true) : t.HasTextNames where
  texts := List.forall_mem_map.mpr htexts
  nodup := by
    obtain ⟨hpairs, hkeys⟩ := Value.areNames_iff.mp h
    refine List.Pairwise.imp_of_mem ?_ hpairs
    rintro m n hm - hdiffer rfl
    rw [Value.same_self (hkeys m hm)] at hdiffer
    cases hdiffer

end Table

/-! ## Graphs whose names differ -/

/-- The names of the entities of a module differ, and so do those of its enumerations. -/
structure Module.HasNames {ε : Type} (m : Module ε) : Prop where
  entities : Value.areNames m.entities.names = true
  enumerations : Value.areNames m.enumerations.names = true

/-- The names of the modules of a project differ, and so do the names in each of them. -/
structure Project.HasNames {ε : Type} (p : Project ε) : Prop where
  modules : Value.areNames p.modules.names = true
  parts : ∀ m ∈ p.modules, m.2.HasNames

theorem Project.hasNames_of_load {document : Value} {p : Project Entity}
    (hkeys : document.keysDiffer = true) (h : (load document).answer = .ok (some p)) :
    p.HasNames := by
  have hread := isReadFrom_of_load h
  have hmodules := Value.keysDiffer_field hkeys "modules"
  refine ⟨Table.areNames_of_loadChildren hmodules hread.modules, fun m hm ↦ ?_⟩
  obtain ⟨v, hv, hload⟩ := Table.exists_load_of_mem_loadChildren hmodules hread.modules hm
  have hmodule := Module.isReadFrom_of_load hload
  exact ⟨Table.areNames_of_loadChildren (Value.keysDiffer_field hv _) hmodule.entities,
    Table.areNames_of_loadChildren (Value.keysDiffer_field hv _) hmodule.enumerations⟩

namespace Graph

/-- Numbers in the place of entities leave their names as they are. -/
theorem hasNames_numberModule (start : Nat) {m : Module Entity} (h : m.HasNames) :
    (numberModule start m).HasNames where
  entities := by
    rw [numberModule, names_numberEntities]
    exact h.entities
  enumerations := h.enumerations

theorem hasNames_ofProject {p : Project Entity} (h : p.HasNames) :
    (ofProject p).project.HasNames where
  modules := by
    rw [ofProject, names_numberModules]
    exact h.modules
  parts := by
    have hmodules (start : Nat) (ms : Table (Module Entity)) (hms : ∀ m ∈ ms, m.2.HasNames) :
        ∀ m ∈ numberModules start ms, m.2.HasNames := by
      induction ms generalizing start with
      | nil => exact fun m hm ↦ absurd hm List.not_mem_nil
      | cons m ms ih =>
        obtain ⟨hfirst, hrest⟩ := List.forall_mem_cons.mp hms
        exact List.forall_mem_cons.mpr ⟨hasNames_numberModule start hfirst, ih _ hrest⟩
    exact hmodules 0 p.modules h.parts

variable {g g' : Graph}

/-- Another module in the place of one, or a module more, brings only its own names. -/
theorem hasNames_insert (h : g.project.HasNames) {name : Value} (hname : name.isKey = true)
    {m : Module EntityId} (hm : m.HasNames) :
    (g.withModules (g.project.modules.insert name m)).project.HasNames where
  modules := Table.areNames_insert h.modules hname m
  parts := by
    intro n hn
    rcases (Table.mem_insert hn).2 with hnew | ⟨n', hn', hold⟩
    · rw [hnew]
      exact hm
    · rw [← hold]
      exact h.parts n' hn'

/-- A change of a module keeps the names of a graph apart if it keeps those of the module apart. -/
theorem hasNames_changeModule (h : g.project.HasNames) {name : Value}
    {change : Module EntityId → Except Fault (Option (Module EntityId))}
    (hchange : ∀ m m', m.HasNames → change m = .ok (some m') → m'.HasNames)
    (happly : g.changeModule name change = .ok (some g')) : g'.project.HasNames := by
  obtain ⟨found, hfound, happly⟩ := bind_eq_ok_iff.mp happly
  obtain ⟨hname, hfind⟩ := Table.get_eq_ok_iff.mp hfound
  cases found with
  | none => cases happly
  | some m =>
    obtain ⟨changed, hchanged, happly⟩ := bind_eq_ok_iff.mp happly
    cases changed with
    | none => cases happly
    | some m' =>
      cases happly
      obtain ⟨n, hn⟩ := Table.mem_of_get hfound
      exact hasNames_insert h hname (hchange m m' (h.parts _ hn) hchanged)

/-- What goes on with a name that was checked goes on with a name that can be one. -/
theorem checkName_bind_eq_ok_iff {β : Type} {name : Value} {f : Value → Except Fault β} {b : β} :
    (Table.checkName name >>= f) = .ok b ↔ name.isKey = true ∧ f name = .ok b := by
  rw [Table.checkName]
  by_cases hkey : name.isKey = true
  · rw [if_pos hkey, ok_bind, and_iff_right hkey]
  · rw [if_neg hkey, iff_false_right fun h ↦ hkey h.1]
    exact fun h ↦ by cases h

/-- Whether the names differ that a change brings. Only a new module brings more than one. -/
def Change.BringsNames : Change → Prop
  | .putModule _ m => m.HasNames
  | _ => True

/-- A step keeps the names of a graph apart. -/
theorem hasNames_of_apply (h : g.project.HasNames) {c : Change} (hc : c.BringsNames)
    (happly : c.apply g = .ok (some g')) : g'.project.HasNames := by
  have hnamed {moduleName name : Value} {id : EntityId} {g' : Graph}
      (happly : g.nameEntity moduleName name id = .ok (some g')) : g'.project.HasNames := by
    refine hasNames_changeModule h (fun m m' hm hchange ↦ ?_) happly
    obtain ⟨hkey, hnew⟩ := checkName_bind_eq_ok_iff.mp hchange
    cases hnew
    exact ⟨Table.areNames_insert hm.entities hkey id, hm.enumerations⟩
  cases c with
  | setParent id path =>
    cases happly
    exact h
  | putEntity moduleName name e =>
    obtain ⟨found, hfound, happly⟩ := bind_eq_ok_iff.mp happly
    obtain ⟨g', rfl, rfl⟩ := Option.map_eq_some_iff.mp (Except.ok.inj happly)
    have hnames : g'.project.HasNames := hnamed hfound
    exact hnames
  | nameEntity moduleName name id => exact hnamed happly
  | removeEntity moduleName name =>
    refine hasNames_changeModule h (fun m m' hm hchange ↦ ?_) happly
    obtain ⟨erased, herased, hchange⟩ := bind_eq_ok_iff.mp hchange
    obtain ⟨t, rfl, rfl⟩ := Option.map_eq_some_iff.mp (Except.ok.inj hchange)
    rw [eraseFrom_eq_ok herased]
    exact ⟨Table.areNames_erase hm.entities name, hm.enumerations⟩
  | putEnumeration moduleName name e =>
    refine hasNames_changeModule h (fun m m' hm hchange ↦ ?_) happly
    obtain ⟨hkey, hnew⟩ := checkName_bind_eq_ok_iff.mp hchange
    cases hnew
    exact ⟨hm.entities, Table.areNames_insert hm.enumerations hkey e⟩
  | removeEnumeration moduleName name =>
    refine hasNames_changeModule h (fun m m' hm hchange ↦ ?_) happly
    obtain ⟨erased, herased, hchange⟩ := bind_eq_ok_iff.mp hchange
    obtain ⟨t, rfl, rfl⟩ := Option.map_eq_some_iff.mp (Except.ok.inj hchange)
    rw [eraseFrom_eq_ok herased]
    exact ⟨hm.entities, Table.areNames_erase hm.enumerations name⟩
  | putModule name m =>
    obtain ⟨put, hput, happly⟩ := bind_eq_ok_iff.mp happly
    obtain ⟨hkey, hnew⟩ := checkName_bind_eq_ok_iff.mp hput
    cases hnew
    cases happly
    exact hasNames_insert h hkey (hasNames_numberModule g.pool.length hc)
  | removeModule name =>
    obtain ⟨erased, herased, happly⟩ := bind_eq_ok_iff.mp happly
    obtain ⟨t, rfl, rfl⟩ := Option.map_eq_some_iff.mp (Except.ok.inj happly)
    rw [eraseFrom_eq_ok herased]
    have hkept := (Table.erase_sublist g.project.modules name).subset
    exact ⟨Table.areNames_erase h.modules name, fun m hm ↦ h.parts m (hkept hm)⟩

/-- Whether a graph was made from a document and then changed, any number of times: by a change of
what it names or inherits from, or by any change of an entity in place. -/
inductive IsReachable : Graph → Prop where
  | loaded {document : Value} {p : Project Entity} : document.keysDiffer = true →
      (Project.load document).answer = .ok (some p) → IsReachable (ofProject p)
  | changed {g g' : Graph} {c : Change} : IsReachable g → c.BringsNames →
      c.apply g = .ok (some g') → IsReachable g'
  | inPlace {g : Graph} (id : EntityId) (change : Entity → Entity) : IsReachable g →
      IsReachable (g.changeEntity id change)

/-- So does a whole run of changes. -/
theorem IsReachable.hasNames (h : g.IsReachable) : g.project.HasNames := by
  induction h with
  | loaded hkeys hload => exact hasNames_ofProject (Project.hasNames_of_load hkeys hload)
  | changed _ hc happly ih => exact hasNames_of_apply ih hc happly
  | inPlace id change _ ih => exact ih

/-- A change that cannot be made leaves a graph that could be reached. -/
theorem IsReachable.after (h : g.IsReachable) {c : Change} (hc : c.BringsNames) :
    (g.after c).IsReachable := by
  rw [Graph.after]
  split
  next g' happly => exact .changed h hc happly
  next => exact h

end Graph

/-! ## Listing and looking up -/

/-- Whether a list of items with their paths is the listing of a look-up: no path occurs twice, and
a textual path is answered with what stands beside it in the list, or with nothing if it does not
occur. -/
structure IsListingOf {β : Type} (find : ElementPath → Except Fault (Option β))
    (entries : List (ElementPath × β)) : Prop where
  nodup : (entries.map (·.1)).Nodup
  found : ∀ path : ElementPath, path.IsTextual →
    ∃ found, find path = .ok found ∧ ∀ item, found = some item ↔ (path, item) ∈ entries

section Listing

namespace Project

variable {ε β : Type} {p : Project ε} {table : Module ε → Table β}

theorem mem_listing_iff {path : ElementPath} {item : β} :
    (path, item) ∈ (p.modules.flatMap fun m ↦
        (table m.2).map fun e ↦ ((⟨m.1, e.1⟩ : ElementPath), e.2)) ↔
      ∃ m, (path.moduleName, m) ∈ p.modules ∧ (path.name, item) ∈ table m := by
  simp only [List.mem_flatMap, List.mem_map, Prod.exists, Prod.mk.injEq]
  constructor
  · rintro ⟨moduleName, m, hm, name, item', hitem, rfl, rfl⟩
    exact ⟨m, hm, hitem⟩
  · rintro ⟨m, hm, hitem⟩
    exact ⟨path.moduleName, m, hm, path.name, item, hitem, rfl, rfl⟩

/-- The tables of a module, be it that of its entities or that of its enumerations, are listed with
the paths that lead into them. -/
theorem isListingOf (hmodules : p.modules.HasTextNames)
    (htable : ∀ m ∈ p.modules, (table m.2).HasTextNames) :
    IsListingOf (fun path ↦ if path.isComplete then do
        match ← p.modules.get path.moduleName with
        | none => return none
        | some m => (table m).get path.name
      else return none)
      (p.modules.flatMap fun m ↦ (table m.2).map fun e ↦ (⟨m.1, e.1⟩, e.2)) where
  nodup := by
    rw [List.map_flatMap, List.Nodup, List.pairwise_flatMap]
    constructor
    · intro m hm
      rw [List.map_map, List.pairwise_map]
      refine (List.pairwise_map.mp (htable m hm).nodup).imp ?_
      intro e f hne hpath
      exact hne (congrArg ElementPath.name hpath)
    · refine (List.pairwise_map.mp hmodules.nodup).imp ?_
      intro m n hne path hpath other hother hsame
      refine hne ?_
      simp only [List.map_map, List.mem_map, Function.comp_apply] at hpath hother
      obtain ⟨_, _, rfl⟩ := hpath
      obtain ⟨_, _, rfl⟩ := hother
      exact congrArg ElementPath.moduleName hsame
  found := by
    intro path htextual
    simp only [mem_listing_iff]
    by_cases hcomplete : path.isComplete = true
    · rw [if_pos hcomplete, Table.get, if_pos htextual.isKey.1, ok_bind]
      rcases hfind : p.modules.find? path.moduleName with - | m
      · refine ⟨none, rfl, fun item ↦ ⟨fun h ↦ (by cases h), ?_⟩⟩
        rintro ⟨m, hm, -⟩
        rw [hmodules.find?_eq_some_iff.mpr hm] at hfind
        cases hfind
      · have hm := hmodules.find?_eq_some_iff.mp hfind
        refine ⟨(table m).find? path.name, ?_, fun item ↦ ?_⟩
        · dsimp only
          rw [Table.get, if_pos htextual.isKey.2]
        · rw [(htable _ hm).find?_eq_some_iff]
          constructor
          · exact fun hitem ↦ ⟨m, hm, hitem⟩
          · rintro ⟨m', hm', hitem⟩
            rw [hmodules.find?_eq_some_iff.mpr hm'] at hfind
            exact Option.some.inj hfind ▸ hitem
    · -- A part that is not set is no text, and so it is the name of nothing.
      rw [if_neg hcomplete]
      refine ⟨none, rfl, fun item ↦ ⟨fun h ↦ (by cases h), ?_⟩⟩
      rintro ⟨m, hm, hitem⟩
      refine absurd ?_ hcomplete
      have hmodule : path.moduleName.isText = true := hmodules.isText_of_mem hm
      have hname : path.name.isText = true := (htable _ hm).isText_of_mem hitem
      obtain ⟨s, hs⟩ := Value.isText_iff.mp hmodule
      obtain ⟨t, ht⟩ := Value.isText_iff.mp hname
      rw [ElementPath.isComplete, hs, ht]
      rfl

end Project

end Listing

/-- The names of the modules, of the entities and of the enumerations are texts. -/
structure Project.NamesAreTexts {ε : Type} (p : Project ε) : Prop where
  modules : ∀ m ∈ p.modules, m.1.isText = true
  entities : ∀ m ∈ p.modules, ∀ e ∈ m.2.entities, e.1.isText = true
  enumerations : ∀ m ∈ p.modules, ∀ e ∈ m.2.enumerations, e.1.isText = true

namespace Graph

/-- In every state of a graph in which its names are texts, the entities are listed with the paths
that lead to them, and so are the enumerations, whatever the two have in common. -/
theorem isListingOf_of_isReachable {g : Graph} (h : g.IsReachable)
    (htexts : g.project.NamesAreTexts) :
    IsListingOf g.project.findEntity g.project.flatEntities ∧
      IsListingOf g.project.findEnumeration g.project.flatEnumerations := by
  have hnames := h.hasNames
  have hmodules := Table.hasTextNames_of_areNames hnames.modules htexts.modules
  constructor
  · refine Project.isListingOf hmodules fun m hm ↦ ?_
    exact Table.hasTextNames_of_areNames (hnames.parts m hm).entities (htexts.entities m hm)
  · refine Project.isListingOf hmodules fun m hm ↦ ?_
    exact Table.hasTextNames_of_areNames (hnames.parts m hm).enumerations
      (htexts.enumerations m hm)

/-! ## An entity with two names, one of which an enumeration has too -/

/-- A document with two entities and an enumeration that goes by the name of the first. -/
def sharedNameDocument : Value :=
  let entity : Value := .map [(.str "type", .int 0), (.str "isAbstract", .bool false),
    (.str "fieldsLocal", .map []), (.str "genericMap", .map [])]
  .map [(.str "modules", .map [(.str "m", .map [
    (.str "entities", .map [(.str "A", entity), (.str "B", entity)]),
    (.str "enums", .map [(.str "A", .map [(.str "enumMap", .map [])])])])])]

/-- What is loaded from it. -/
def sharedNameProject : Project Entity where
  modules := [(.str "m",
    { entities := [(.str "A", {}), (.str "B", {})], enumerations := [(.str "A", {})] })]

/-- The second entity is deleted, and the first goes by its name as well. -/
def sharedNameGraph : Graph :=
  ((ofProject sharedNameProject).after (.removeEntity (.str "m") (.str "B"))).after
    (.nameEntity (.str "m") (.str "B") ⟨0⟩)

theorem isReachable_sharedNameGraph : sharedNameGraph.IsReachable := by
  have hkeys : sharedNameDocument.keysDiffer = true := by decide +kernel
  have hloaded : (ofProject sharedNameProject).IsReachable := .loaded hkeys rfl
  refine .after (.after hloaded ?_) ?_
  · exact trivial
  · exact trivial

theorem namesAreTexts_sharedNameGraph : sharedNameGraph.project.NamesAreTexts := by
  have hmodules : sharedNameGraph.project.modules = [(.str "m",
    { entities := [(.str "A", ⟨0⟩), (.str "B", ⟨0⟩)], enumerations := [(.str "A", {})] })] := rfl
  constructor
  · rw [hmodules, List.forall_mem_singleton]
    rfl
  · simp only [hmodules, List.forall_mem_singleton, List.forall_mem_cons]
    exact ⟨rfl, rfl⟩
  · simp only [hmodules, List.forall_mem_singleton]
    rfl

theorem isListingOf_sharedNameGraph :
    sharedNameGraph.IsReachable ∧ sharedNameGraph.project.NamesAreTexts ∧
      sharedNameGraph.project.flatEntities =
        [(⟨.str "m", .str "A"⟩, ⟨0⟩), (⟨.str "m", .str "B"⟩, ⟨0⟩)] ∧
      IsListingOf sharedNameGraph.project.findEntity sharedNameGraph.project.flatEntities ∧
      IsListingOf sharedNameGraph.project.findEnumeration
        sharedNameGraph.project.flatEnumerations :=
  ⟨isReachable_sharedNameGraph, namesAreTexts_sharedNameGraph, rfl,
    isListingOf_of_isReachable isReachable_sharedNameGraph namesAreTexts_sharedNameGraph⟩

end Graph

end EntityGraph
