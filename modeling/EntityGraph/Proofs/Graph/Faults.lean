import EntityGraph.Proofs.Graph.OpenGenerics
import EntityGraph.Proofs.Table

/-!
# Faults of queries

The parts of a path and the generic parameters of a field may be any values that a document holds,
and a sequence, a mapping or a set among them cannot be looked up. So a path that leads nowhere is
no fault, but a path of this kind can be one; where it is, the walk along a lineage fails that comes
to it.

Each query is described by its fault: a relation says which fault there is, by what the graph holds
and with no mention of the walk. There is one at most. As a walk that meets no fault has gone up a
chain, which rules a fault out, a query fails exactly with the fault that there is.
-/

namespace EntityGraph

/-! ## Look-ups -/

namespace Project

variable {ε : Type} {p : Project ε} {path : ElementPath} {fault : Fault}

/-- The part of a path that a look-up comes to and that cannot be looked up. It does not come to the
name if there is no module to look in, and to neither part if one of them is not set. -/
inductive Stumbles (p : Project ε) (path : ElementPath) : Value → Prop where
  | moduleName : path.isComplete = true → path.moduleName.isKey = false →
      Stumbles p path path.moduleName
  | name {m : Module ε} : path.isComplete = true → path.moduleName.isKey = true →
      p.modules.find? path.moduleName = some m → path.name.isKey = false →
        Stumbles p path path.name

/-- A look-up of a path in any of the tables of a module fails exactly if it stumbles. -/
theorem lookUp_eq_error_iff {β : Type} (table : Module ε → Table β) :
    (if path.isComplete then do
        match ← p.modules.get path.moduleName with
        | none => return none
        | some m => (table m).get path.name
      else return none : Except Fault (Option β)) = .error fault ↔
      ∃ part, p.Stumbles path part ∧ fault = .notAKey part.kind := by
  by_cases hcomplete : path.isComplete = true
  · rw [if_pos hcomplete, bind_eq_error_iff, Table.get_eq_error_iff]
    constructor
    · rintro (⟨hkey, hfault⟩ | ⟨found, hfound, hfault⟩)
      · exact ⟨_, .moduleName hcomplete hkey, hfault⟩
      · cases found with
        | none => cases hfault
        | some m =>
          obtain ⟨hkey, hfault⟩ := Table.get_eq_error_iff.mp hfault
          obtain ⟨hmodule, hm⟩ := Table.get_eq_ok_iff.mp hfound
          exact ⟨_, .name hcomplete hmodule hm hkey, hfault⟩
    · rintro ⟨part, hstumbles, hfault⟩
      cases hstumbles with
      | moduleName _ hkey => exact Or.inl ⟨hkey, hfault⟩
      | name _ hmodule hm hkey =>
        exact Or.inr ⟨_, Table.get_eq_ok_iff.mpr ⟨hmodule, hm⟩,
          Table.get_eq_error_iff.mpr ⟨hkey, hfault⟩⟩
  · rw [if_neg hcomplete]
    constructor
    · intro h
      cases h
    · rintro ⟨part, hstumbles, -⟩
      cases hstumbles with
      | moduleName h _ => exact absurd h hcomplete
      | name h _ _ _ => exact absurd h hcomplete

theorem findEntity_eq_error_iff :
    p.findEntity path = .error fault ↔ ∃ part, p.Stumbles path part ∧ fault = .notAKey part.kind :=
  lookUp_eq_error_iff Module.entities

theorem findEnumeration_eq_error_iff :
    p.findEnumeration path = .error fault ↔
      ∃ part, p.Stumbles path part ∧ fault = .notAKey part.kind :=
  lookUp_eq_error_iff Module.enumerations

end Project

namespace Graph

variable {g : Graph} {project : Option (Project EntityId)} {id : EntityId} {fault fault' : Fault}

/-! ## Lineages that loop and lineages that break off -/

theorem IsLoop.length_le {followed followed' : List ElementPath}
    (h : g.IsLoop project id followed) (h' : g.IsLoop project id followed') :
    followed'.length ≤ followed.length := by
  obtain ⟨start, hstart, hback⟩ := h.back
  refine Nat.not_lt.mp fun hlt ↦ ?_
  exact h'.distinct start followed.length hstart hlt hback.symm

/-- A lineage goes around one loop at most. -/
theorem IsLoop.unique {followed followed' : List ElementPath} (h : g.IsLoop project id followed)
    (h' : g.IsLoop project id followed') : followed = followed' := by
  refine List.ext_getElem (Nat.le_antisymm (h'.length_le h) (h.length_le h')) fun i hi hi' ↦ ?_
  obtain ⟨e, he, hpath, -⟩ := h.paths i followed[i] (List.getElem?_eq_getElem hi)
  obtain ⟨e', he', hpath', -⟩ := h'.paths i followed'[i] (List.getElem?_eq_getElem hi')
  cases he.symm.trans he'
  exact Option.some.inj (hpath.symm.trans hpath')

/-- Where a lineage breaks off it ends. -/
theorem lineage_succ_of_follow_error {n : Nat} {e : EntityId} {path : ElementPath}
    (hn : g.lineage project id n = some e) (hpath : (g.entity e).parent = some path)
    (hfault : follow project path = .error fault) : g.lineage project id (n + 1) = none := by
  rw [lineage_succ, hn, Option.bind_some, parentOf, hpath]
  simp only [hfault]

theorem BreaksOff.ends (h : g.BreaksOff project id fault) : g.Ends project id := by
  obtain ⟨n, e, path, hn, hpath, hfault⟩ := h
  exact ⟨n + 1, lineage_succ_of_follow_error hn hpath hfault⟩

theorem BreaksOff.unique (h : g.BreaksOff project id fault) (h' : g.BreaksOff project id fault') :
    fault = fault' := by
  obtain ⟨n, e, path, hn, hpath, hfault⟩ := h
  obtain ⟨n', e', path', hn', hpath', hfault'⟩ := h'
  have hend := lineage_succ_of_follow_error hn hpath hfault
  have hend' := lineage_succ_of_follow_error hn' hpath' hfault'
  have hsame : n = n' := by
    rcases Nat.lt_trichotomy n n' with hlt | hsame | hlt
    · cases (lineage_eq_none_of_le hend hlt).symm.trans hn'
    · exact hsame
    · cases (lineage_eq_none_of_le hend' hlt).symm.trans hn
  subst hsame
  cases hn.symm.trans hn'
  cases hpath.symm.trans hpath'
  exact Except.error.inj (hfault.symm.trans hfault')

/-- Every parent path in a chain is followed or leads nowhere. -/
theorem IsChain.exists_follow {chain : List EntityId} (h : g.IsChain project chain id) :
    ∀ e ∈ chain, ∀ path, (g.entity e).parent = some path →
      ∃ found, follow project path = .ok found := by
  induction h with
  | root hroot =>
    intro e he path hpath
    rw [List.mem_singleton.mp he] at hpath
    exact ⟨none, hroot path hpath⟩
  | child _ hparent hfollow ih =>
    intro e he path hpath
    rcases List.mem_append.mp he with he | he
    · exact ih e he path hpath
    · rw [List.mem_singleton.mp he] at hpath
      cases hparent.symm.trans hpath
      exact ⟨_, hfollow⟩

/-! ## Walks -/

/-- The fault that the walk from an entity meets: that of a loop, or that of a path that a look-up
stumbles over. -/
def WalkFault (g : Graph) (id : EntityId) (fault : Fault) : Prop :=
  (∃ followed, g.IsLoop g.project id followed ∧ fault = .cyclic followed) ∨
    ∃ n e path part, g.lineage g.project id n = some e ∧ (g.entity e).parent = some path ∧
      g.project.Stumbles path part ∧ fault = .notAKey part.kind

theorem walkFault_iff : g.WalkFault id fault ↔
    (∃ followed, g.IsLoop g.project id followed ∧ fault = .cyclic followed) ∨
      g.BreaksOff g.project id fault := by
  refine or_congr_right ?_
  refine exists_congr fun n ↦ exists_congr fun e ↦ exists_congr fun path ↦ ?_
  have hfollow : follow g.project path = .error fault ↔
      ∃ part, g.project.Stumbles path part ∧ fault = .notAKey part.kind :=
    Project.findEntity_eq_error_iff
  rw [hfollow, exists_and_left, exists_and_left]

theorem WalkFault.unique (h : g.WalkFault id fault) (h' : g.WalkFault id fault') :
    fault = fault' := by
  rcases walkFault_iff.mp h with ⟨followed, hloop, rfl⟩ | hbreaks
  · rcases walkFault_iff.mp h' with ⟨followed', hloop', rfl⟩ | hbreaks'
    · rw [hloop.unique hloop']
    · exact absurd hbreaks'.ends hloop.not_ends
  · rcases walkFault_iff.mp h' with ⟨followed', hloop', rfl⟩ | hbreaks'
    · exact absurd hbreaks.ends hloop'.not_ends
    · exact hbreaks.unique hbreaks'

/-- A walk answers with the lineage and meets no fault, or it fails with the fault that it meets. -/
theorem answer_ancestors_or_fault (g : Graph) (id : EntityId) :
    (∃ chain, (g.ancestors g.project id).answer = .ok chain ∧ ∀ fault, ¬ g.WalkFault id fault) ∨
      ∃ fault, (g.ancestors g.project id).answer = .error fault ∧ g.WalkFault id fault := by
  rcases g.outcome_ancestors g.project id with
    ⟨chain, hchain, -, hlineage⟩ | ⟨loop, hfault, hloop⟩ | ⟨fault, hfault, hbreaks⟩
  · refine Or.inl ⟨chain, hchain, fun fault h ↦ ?_⟩
    rcases walkFault_iff.mp h with ⟨followed, hloop, -⟩ | ⟨n, e, path, hn, hpath, hfault⟩
    · exact hloop.not_ends (ends_of_reverse hlineage)
    · have hmem : e ∈ chain :=
        List.mem_reverse.mp (List.mem_of_getElem? ((hlineage n).trans hn))
      obtain ⟨found, hfound⟩ :=
        (answer_ancestors_eq_ok_iff.mp hchain).exists_follow e hmem path hpath
      cases hfault.symm.trans hfound
  · exact Or.inr ⟨_, hfault, walkFault_iff.mpr (Or.inl ⟨loop, hloop, rfl⟩)⟩
  · exact Or.inr ⟨fault, hfault, walkFault_iff.mpr (Or.inr hbreaks)⟩

theorem answer_ancestors_eq_error_iff :
    (g.ancestors g.project id).answer = .error fault ↔ g.WalkFault id fault := by
  rcases g.answer_ancestors_or_fault id with ⟨chain, hchain, hnone⟩ | ⟨fault', hfault', hmet⟩
  · rw [hchain]
    exact ⟨fun h ↦ (by cases h), fun h ↦ absurd h (hnone fault)⟩
  · rw [hfault']
    constructor
    · intro h
      cases h
      exact hmet
    · intro h
      rw [hmet.unique h]

/-! ## Generic parameters -/

/-- The first of some values that cannot be looked up. -/
def firstUnkeyed (values : List Value) : Option Value := values.find? fun v ↦ !v.isKey

theorem firstUnkeyed_eq_none_iff {values : List Value} :
    firstUnkeyed values = none ↔ ∀ v ∈ values, v.isKey = true := by
  simp [firstUnkeyed]

/-- Looking names up fails at the first of them that cannot be looked up. -/
theorem unbound_eq_error_iff {bindings : Table Field} {names : List Value} :
    unbound bindings names = .error fault ↔
      ∃ v, firstUnkeyed names = some v ∧ fault = .notAKey v.kind := by
  induction names with
  | nil =>
    constructor
    · intro h
      cases h
    · rintro ⟨v, h, -⟩
      cases h
  | cons name names ih =>
    rw [unbound, bind_eq_error_iff, Table.get_eq_error_iff]
    cases hkey : name.isKey with
    | false =>
      have hfirst : firstUnkeyed (name :: names) = some name := by simp [firstUnkeyed, hkey]
      rw [hfirst]
      constructor
      · rintro (⟨-, hfault⟩ | ⟨found, hfound, -⟩)
        · exact ⟨name, rfl, hfault⟩
        · cases hkey.symm.trans (Table.get_eq_ok_iff.mp hfound).1
      · rintro ⟨v, hv, hfault⟩
        cases hv
        exact Or.inl ⟨rfl, hfault⟩
    | true =>
      have hfirst : firstUnkeyed (name :: names) = firstUnkeyed names := by
        simp [firstUnkeyed, hkey]
      rw [hfirst, ← ih]
      -- Whether the name is kept or not, the names after it are looked up.
      constructor
      · rintro (⟨h, -⟩ | ⟨found, -, h⟩)
        · cases h
        · cases found with
          | some f => exact h
          | none =>
            rcases bind_eq_error_iff.mp h with h | ⟨_, -, h⟩
            · exact h
            · cases h
      · intro h
        refine Or.inr ⟨bindings.find? name, Table.get_eq_ok_iff.mpr ⟨hkey, rfl⟩, ?_⟩
        cases bindings.find? name with
        | some f => exact h
        | none => exact bind_eq_error_iff.mpr (Or.inl h)

/-- The parameters that the entities of a list mention, in the order in which they are come to. -/
def genericsAlong (g : Graph) (ids : List EntityId) : List Value :=
  ids.flatMap fun id ↦ (g.entity id).localGenerics

/-- Going down a chain fails at the first parameter of the chain that cannot be looked up. -/
theorem openAfter_eq_error_iff {chain : List EntityId} {names : List Value}
    (h : ∀ v ∈ names, v.isKey = true) :
    g.openAfter names chain = .error fault ↔
      ∃ v, firstUnkeyed (g.genericsAlong chain) = some v ∧ fault = .notAKey v.kind := by
  induction chain generalizing names with
  | nil =>
    constructor
    · intro hfault
      cases hfault
    · rintro ⟨v, hv, -⟩
      cases hv
  | cons id below ih =>
    have hhere : firstUnkeyed (names ++ (g.entity id).localGenerics) =
        firstUnkeyed (g.entity id).localGenerics := by
      rw [firstUnkeyed, List.find?_append, ← firstUnkeyed, firstUnkeyed_eq_none_iff.mpr h]
      rfl
    have hall : firstUnkeyed (g.genericsAlong (id :: below)) =
        (firstUnkeyed (g.entity id).localGenerics).or (firstUnkeyed (g.genericsAlong below)) :=
      List.find?_append
    rw [openAfter, hall]
    cases hfirst : firstUnkeyed (g.entity id).localGenerics with
    | some v =>
      rw [unbound_eq_error_iff.mpr ⟨v, hhere.trans hfirst, rfl⟩]
      constructor
      · intro hfault
        cases hfault
        exact ⟨v, rfl, rfl⟩
      · rintro ⟨v', hv', rfl⟩
        cases hv'
        rfl
    | none =>
      have hkeys := firstUnkeyed_eq_none_iff.mp (hhere.trans hfirst)
      rw [unbound_eq_ok hkeys, ok_bind, ih (isKey_of_mem_unboundIn hkeys)]
      rfl

/-- The fault that the parameters of a chain give rise to, where the walk to the chain meets
none. -/
def GenericFault (g : Graph) (id : EntityId) (fault : Fault) : Prop :=
  ∃ chain v, g.IsChain g.project chain id ∧ firstUnkeyed (g.genericsAlong chain) = some v ∧
    fault = .notAKey v.kind

theorem answer_unsolvedGenerics_eq_error_iff :
    (g.unsolvedGenerics g.project id).answer = .error fault ↔
      g.WalkFault id fault ∨ g.GenericFault id fault := by
  rw [unsolvedGenerics, Query.answer_bind, bind_eq_error_iff, answer_ancestors_eq_error_iff]
  refine or_congr_right (exists_congr fun chain ↦ ?_)
  rw [answer_ancestors_eq_ok_iff, Query.answer_ofExcept,
    openAfter_eq_error_iff fun _ hmem ↦ absurd hmem List.not_mem_nil, exists_and_left]

theorem answer_allFields_eq_error_iff :
    (g.allFields g.project id).answer = .error fault ↔ g.WalkFault id fault := by
  rw [allFields, Query.answer_bind, bind_eq_error_iff, answer_ancestors_eq_error_iff]
  constructor
  · rintro (h | ⟨_, -, h⟩)
    · exact h
    · cases h
  · exact Or.inl

/-! ## Faults of queries -/

/-- Looking up a path fails exactly if it stumbles over one of the parts. The walk to the ancestors
fails exactly if it comes to such a path, or back to where it was, and so does the collection of all
fields; the collection of the open parameters can also fail at a parameter. There is no other
fault. -/
theorem fails_iff_fault (g : Graph) :
    (∀ path fault, g.project.findEntity path = .error fault ↔
      ∃ part, g.project.Stumbles path part ∧ fault = .notAKey part.kind) ∧
    (∀ path fault, g.project.findEnumeration path = .error fault ↔
      ∃ part, g.project.Stumbles path part ∧ fault = .notAKey part.kind) ∧
    ∀ id fault,
      ((g.ancestors g.project id).answer = .error fault ↔ g.WalkFault id fault) ∧
      ((g.allFields g.project id).answer = .error fault ↔ g.WalkFault id fault) ∧
      ((g.unsolvedGenerics g.project id).answer = .error fault ↔
        g.WalkFault id fault ∨ g.GenericFault id fault) :=
  ⟨fun _ _ ↦ Project.findEntity_eq_error_iff, fun _ _ ↦ Project.findEnumeration_eq_error_iff,
    fun _ _ ↦ ⟨answer_ancestors_eq_error_iff, answer_allFields_eq_error_iff,
      answer_unsolvedGenerics_eq_error_iff⟩⟩

/-- A document with a parameter and a parent path that are made of sequences. -/
def sequencedDocument : Value :=
  let entity (fields : List (Value × Value)) (rest : List (Value × Value)) : Value :=
    .map ([(.str "type", .int 0), (.str "isAbstract", .bool false),
      (.str "fieldsLocal", .map fields), (.str "genericMap", .map [])] ++ rest)
  .map [(.str "modules", .map [(.str "m", .map [(.str "entities", .map [
    (.str "A", entity
      [(.str "f", .map [
        (.str "type", .map [(.str "type", .str "TUnknown"), (.str "unknown", .seq [.str "T"])]),
        (.str "isOptional", .bool false), (.str "isPathParameter", .bool false)])] []),
    (.str "B", entity []
      [(.str "parent", .map [(.str "module", .seq [.str "m"]), (.str "name", .str "A")])])])])])]

/-- It describes a project, of which two queries fail. -/
theorem fails_sequencedDocument :
    ∃ p, (Project.load sequencedDocument).answer = .ok (some p) ∧
      ((ofProject p).ancestors (ofProject p).project ⟨1⟩).answer = .error (.notAKey .seq) ∧
      ((ofProject p).unsolvedGenerics (ofProject p).project ⟨0⟩).answer =
        .error (.notAKey .seq) := by
  refine ⟨_, rfl, ?_, ?_⟩
  · refine ((fails_iff_fault _).2.2 _ _).1.mpr (Or.inr ?_)
    exact ⟨0, ⟨1⟩, _, _, rfl, rfl, .moduleName rfl rfl, rfl⟩
  · refine ((fails_iff_fault _).2.2 _ _).2.2.mpr (Or.inr ?_)
    refine ⟨[⟨0⟩], .seq [.str "T"], .root fun path hpath ↦ ?_, rfl, rfl⟩
    cases hpath

end Graph

end EntityGraph
