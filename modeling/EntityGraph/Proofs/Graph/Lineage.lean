import EntityGraph.Graph.Inheritance
import EntityGraph.Proofs.Query
import Mathlib.Data.List.Nodup

/-!
# Lineages

The lineage of an entity is the sequence that starts with it and goes on with the parent of each
entity, for as long as there is one. It is defined without a walk: the entity after `n` steps is
there or not, and nothing is remembered on the way. A lineage that does not end has to come back to
an entity it has passed, since a project names finitely many.

The walk to the ancestors is then compared with the lineage. Its invariant, `Climbed`, says that the
entities visited so far are the beginning of the lineage, all different, and that the paths followed
so far are the ones that lead from each to the next. The walk stops either where the lineage ends or
at the first entity that the lineage meets again.
-/

namespace EntityGraph

/-! ## Following paths -/

/-- Looking up a path in any of the tables of a module answers, if its parts can be looked up. -/
theorem Project.exists_ok_of_isKey {ε β : Type} {p : Project ε} {path : ElementPath}
    (table : Module ε → Table β) (hmodule : path.moduleName.isKey = true)
    (hname : path.name.isKey = true) :
    ∃ found, (if path.isComplete then do
        match ← p.modules.get path.moduleName with
        | none => return none
        | some m => (table m).get path.name
      else return none : Except Fault (Option β)) = .ok found := by
  by_cases hcomplete : path.isComplete = true
  · rw [if_pos hcomplete, Table.get, if_pos hmodule, ok_bind]
    cases p.modules.find? path.moduleName with
    | none => exact ⟨none, rfl⟩
    | some m => exact ⟨(table m).find? path.name, by simp only [Table.get, if_pos hname]⟩
  · rw [if_neg hcomplete]
    exact ⟨none, rfl⟩

namespace Graph

variable {g : Graph} {project : Option (Project EntityId)} {id : EntityId}

theorem exists_follow_of_isKey {path : ElementPath} (hmodule : path.moduleName.isKey = true)
    (hname : path.name.isKey = true) : ∃ found, follow project path = .ok found := by
  cases project with
  | none => exact ⟨none, rfl⟩
  | some p => exact Project.exists_ok_of_isKey Module.entities hmodule hname

/-! ## Lineages -/

/-- The entity that the parent path of an entity leads to. -/
def parentOf (g : Graph) (project : Option (Project EntityId)) (id : EntityId) : Option EntityId :=
  match (g.entity id).parent with
  | none => none
  | some path =>
    match follow project path with
    | .ok found => found
    | .error _ => none

/-- The entity that is reached from an entity by a number of steps to a parent. -/
def lineage (g : Graph) (project : Option (Project EntityId)) (id : EntityId) :
    Nat → Option EntityId
  | 0 => some id
  | n + 1 => (g.lineage project id n).bind (g.parentOf project)

@[simp] theorem lineage_zero : g.lineage project id 0 = some id := rfl

theorem lineage_succ (n : Nat) :
    g.lineage project id (n + 1) = (g.lineage project id n).bind (g.parentOf project) := rfl

/-- Whether the lineage of an entity comes to an end. -/
def Ends (g : Graph) (project : Option (Project EntityId)) (id : EntityId) : Prop :=
  ∃ n, g.lineage project id n = none

/-- Both parts of a parent path can be looked up, for an entity and for those that a project names.
Detached entities other than this one do not matter, since no path leads to them. -/
def HasKeyParents (g : Graph) (project : Option (Project EntityId)) (id : EntityId) : Prop :=
  ∀ e ∈ id :: named project, ∀ path, (g.entity e).parent = some path →
    path.moduleName.isKey = true ∧ path.name.isKey = true

/-- The paths lead along a lineage up to an entity that it has passed, and to none before that. -/
structure IsLoop (g : Graph) (project : Option (Project EntityId)) (id : EntityId)
    (followed : List ElementPath) : Prop where
  paths : ∀ i path, followed[i]? = some path →
    ∃ e, g.lineage project id i = some e ∧ (g.entity e).parent = some path ∧
      follow project path = .ok (g.lineage project id (i + 1))
  distinct : ∀ i j, i < j → j < followed.length →
    g.lineage project id i ≠ g.lineage project id j
  back : ∃ i < followed.length,
    g.lineage project id followed.length = g.lineage project id i

/-- The lineage comes to an entity whose parent path cannot be looked up, for this reason. -/
def BreaksOff (g : Graph) (project : Option (Project EntityId)) (id : EntityId) (fault : Fault) :
    Prop :=
  ∃ n e path, g.lineage project id n = some e ∧ (g.entity e).parent = some path ∧
    follow project path = .error fault

/-- A lineage that has ended does not begin again. -/
theorem lineage_eq_none_of_le {m n : Nat} (h : g.lineage project id m = none) (hmn : m ≤ n) :
    g.lineage project id n = none := by
  induction hmn with
  | refl => exact h
  | step _ ih => rw [lineage_succ, ih, Option.bind_none]

/-- A lineage does not leave the project that its entity starts from. -/
theorem mem_of_lineage {n : Nat} {e : EntityId} (h : g.lineage project id n = some e) :
    e ∈ id :: named project := by
  cases n with
  | zero =>
    cases h
    exact List.mem_cons_self
  | succ n =>
    obtain ⟨child, -, hparent⟩ := Option.bind_eq_some_iff.mp h
    rw [parentOf] at hparent
    split at hparent
    next => cases hparent
    next path hpath =>
      split at hparent
      next found hfound =>
        rw [hparent] at hfound
        exact List.mem_cons_of_mem _ (mem_named_of_follow hfound)
      next => cases hparent

/-- A lineage that comes back does not end: however far it goes, it is on its first round. -/
theorem IsLoop.not_ends {followed : List ElementPath} (h : g.IsLoop project id followed) :
    ¬ g.Ends project id := by
  obtain ⟨start, hstart, hback⟩ := h.back
  -- A step from the last place of the round leads back to `start`, any other to the next place.
  have hround : ∀ n, ∃ k < followed.length, g.lineage project id n = g.lineage project id k := by
    intro n
    induction n with
    | zero => exact ⟨0, Nat.zero_lt_of_lt hstart, rfl⟩
    | succ n ih =>
      obtain ⟨k, hk, hn⟩ := ih
      by_cases hlast : k + 1 < followed.length
      · refine ⟨k + 1, hlast, ?_⟩
        rw [lineage_succ, lineage_succ, hn]
      · have hlength : k + 1 = followed.length := Nat.le_antisymm hk (Nat.not_lt.mp hlast)
        refine ⟨start, hstart, ?_⟩
        rw [← hback, ← hlength, lineage_succ, lineage_succ, hn]
  rintro ⟨n, hn⟩
  obtain ⟨k, hk, hsame⟩ := hround n
  obtain ⟨e, he, -⟩ := h.paths k followed[k] (List.getElem?_eq_getElem hk)
  rw [← hsame, hn] at he
  cases he

/-! ## The walk -/

/-- The state of a walk: what it has visited is the beginning of the lineage. -/
structure Climbed (g : Graph) (project : Option (Project EntityId)) (id current : EntityId)
    (below : List EntityId) (followed : List ElementPath) : Prop where
  fresh : (current :: below).Nodup
  length_eq : followed.length = below.length
  visited : ∀ i ≤ below.length, (current :: below).reverse[i]? = g.lineage project id i
  paths : ∀ i path, followed[i]? = some path →
    ∃ e, g.lineage project id i = some e ∧ (g.entity e).parent = some path ∧
      Graph.follow project path = .ok (g.lineage project id (i + 1))

namespace Climbed

variable {current : EntityId} {below : List EntityId} {followed : List ElementPath}

theorem start : g.Climbed project id id [] [] where
  fresh := List.nodup_cons.mpr ⟨List.not_mem_nil, List.nodup_nil⟩
  length_eq := rfl
  visited := by
    intro i hi
    rw [Nat.le_zero.mp hi]
    rfl
  paths := by
    intro i path h
    cases h

theorem lineage_eq (h : g.Climbed project id current below followed) :
    g.lineage project id below.length = some current := by
  rw [← h.visited _ (Nat.le_refl _), List.reverse_cons]
  simp

/-- A path that leads on leads to the next entity of the lineage. -/
theorem lineage_succ_eq (h : g.Climbed project id current below followed) {path : ElementPath}
    {found : Option EntityId} (hpath : (g.entity current).parent = some path)
    (hfollow : Graph.follow project path = .ok found) :
    g.lineage project id (below.length + 1) = found := by
  rw [lineage_succ, h.lineage_eq, Option.bind_some, parentOf, hpath]
  simp only [hfollow]

/-- The paths of a walk that goes one further, whether it comes to a new entity or not. -/
theorem paths_append (h : g.Climbed project id current below followed) {path : ElementPath}
    {parent : EntityId} (hpath : (g.entity current).parent = some path)
    (hfollow : Graph.follow project path = .ok (some parent)) (i : Nat) (p : ElementPath)
    (hp : (followed ++ [path])[i]? = some p) :
    ∃ e, g.lineage project id i = some e ∧ (g.entity e).parent = some p ∧
      Graph.follow project p = .ok (g.lineage project id (i + 1)) := by
  by_cases hi : i < followed.length
  · rw [List.getElem?_append_left hi] at hp
    exact h.paths i p hp
  · rw [List.getElem?_append_right (Nat.not_lt.mp hi)] at hp
    obtain ⟨hzero, hsingle⟩ := List.getElem?_eq_some_iff.mp hp
    have hlast : i = below.length := by
      rw [← h.length_eq]
      simp only [List.length_singleton] at hzero
      omega
    have hsame : p = path := by
      rw [← hsingle]
      simp
    rw [hlast, hsame]
    exact ⟨current, h.lineage_eq, hpath, by rw [h.lineage_succ_eq hpath hfollow, hfollow]⟩

theorem step (h : g.Climbed project id current below followed) {path : ElementPath}
    {parent : EntityId} (hpath : (g.entity current).parent = some path)
    (hfollow : Graph.follow project path = .ok (some parent)) (hnew : parent ∉ current :: below) :
    g.Climbed project id parent (current :: below) (followed ++ [path]) where
  fresh := List.nodup_cons.mpr ⟨hnew, h.fresh⟩
  length_eq := by rw [List.length_append, h.length_eq]; rfl
  visited := by
    intro i hi
    rw [List.reverse_cons]
    by_cases hlast : i ≤ below.length
    · rw [List.getElem?_append_left (by simpa using Nat.lt_succ_of_le hlast)]
      exact h.visited i hlast
    · have hi' : i = below.length + 1 := Nat.le_antisymm hi (Nat.lt_of_not_le hlast)
      rw [hi', h.lineage_succ_eq hpath hfollow]
      simp
  paths := h.paths_append hpath hfollow

/-- A walk that cannot go on has visited the whole lineage. -/
theorem lineage_of_none (h : g.Climbed project id current below followed)
    (hend : g.lineage project id (below.length + 1) = none) (i : Nat) :
    (current :: below).reverse[i]? = g.lineage project id i := by
  by_cases hi : i ≤ below.length
  · exact h.visited i hi
  · have hlt : below.length < i := Nat.lt_of_not_le hi
    rw [lineage_eq_none_of_le hend hlt, List.getElem?_eq_none_iff, List.length_reverse]
    exact hlt

theorem isLoop (h : g.Climbed project id current below followed) {path : ElementPath}
    {parent : EntityId} (hpath : (g.entity current).parent = some path)
    (hfollow : Graph.follow project path = .ok (some parent)) (hold : parent ∈ current :: below) :
    g.IsLoop project id (followed ++ [path]) := by
  have hlength : (followed ++ [path]).length = below.length + 1 := by
    rw [List.length_append, h.length_eq]
    rfl
  refine ⟨h.paths_append hpath hfollow, ?_, ?_⟩
  · -- The places before the last are the entities visited, which are all different.
    intro i j hij hj
    rw [hlength] at hj
    rw [← h.visited i (Nat.le_of_lt_succ (Nat.lt_trans hij hj)),
      ← h.visited j (Nat.le_of_lt_succ hj)]
    have hnodup : (current :: below).reverse.Nodup := List.nodup_reverse.mpr h.fresh
    exact List.nodup_iff_getElem?_ne_getElem?.mp hnodup i j hij (by simpa using hj)
  · obtain ⟨i, hi⟩ := List.mem_iff_getElem?.mp (List.mem_reverse.mpr hold)
    obtain ⟨hlt, -⟩ := List.getElem?_eq_some_iff.mp hi
    rw [List.length_reverse] at hlt
    refine ⟨i, by rw [hlength]; exact hlt, ?_⟩
    rw [hlength, h.lineage_succ_eq hpath hfollow, ← hi, h.visited i (Nat.le_of_lt_succ hlt)]

/-- A walk answers with the whole lineage, goes once around a loop, or breaks off. -/
theorem answer_climb (h : g.Climbed project id current below followed) :
    (∃ chain, (g.climb project current below followed).answer = .ok chain ∧ chain.Nodup ∧
      ∀ i, chain.reverse[i]? = g.lineage project id i) ∨
    (∃ loop, (g.climb project current below followed).answer = .error (.cyclic loop) ∧
      g.IsLoop project id loop) ∨
    ∃ fault, (g.climb project current below followed).answer = .error fault ∧
      g.BreaksOff project id fault := by
  -- The induction is that of the walk, on the identities still to be visited; `Climbed` carries it.
  fun_induction climb g project current below followed with
  | case1 current below followed hnone =>
    left
    have hend : g.lineage project id (below.length + 1) = none := by
      rw [lineage_succ, h.lineage_eq, Option.bind_some, parentOf, hnone]
    exact ⟨_, rfl, h.fresh, h.lineage_of_none hend⟩
  | case2 current below followed path hpath fault hfollow =>
    right
    right
    exact ⟨fault, rfl, below.length, current, path, h.lineage_eq, hpath, hfollow⟩
  | case3 current below followed path hpath hfollow =>
    left
    exact ⟨_, rfl, h.fresh, h.lineage_of_none (h.lineage_succ_eq hpath hfollow)⟩
  | case4 current below followed path hpath parent hfollow hold =>
    right
    left
    exact ⟨_, rfl, h.isLoop hpath hfollow hold⟩
  | case5 current below followed path hpath parent hfollow hnew ih =>
    exact ih (h.step hpath hfollow hnew)

end Climbed

/-! ## Ancestors and visits -/

/-- A walk from an entity answers with its whole lineage, goes once around a loop, or breaks off. -/
theorem outcome_ancestors (g : Graph) (project : Option (Project EntityId)) (id : EntityId) :
    (∃ chain, (g.ancestors project id).answer = .ok chain ∧ chain.Nodup ∧
      ∀ i, chain.reverse[i]? = g.lineage project id i) ∨
    (∃ loop, (g.ancestors project id).answer = .error (.cyclic loop) ∧
      g.IsLoop project id loop) ∨
    ∃ fault, (g.ancestors project id).answer = .error fault ∧ g.BreaksOff project id fault :=
  Climbed.start.answer_climb

theorem HasKeyParents.not_breaksOff (hkeys : g.HasKeyParents project id) {fault : Fault} :
    ¬ g.BreaksOff project id fault := by
  rintro ⟨n, e, path, hn, hpath, hfault⟩
  obtain ⟨hmodule, hname⟩ := hkeys e (mem_of_lineage hn) path hpath
  obtain ⟨found, hfound⟩ : ∃ found, Graph.follow project path = .ok found :=
    exists_follow_of_isKey hmodule hname
  rw [hfault] at hfound
  cases hfound

/-- A walk along parents that can be looked up does not break off. -/
theorem answer_ancestors (hkeys : g.HasKeyParents project id) :
    (∃ chain, (g.ancestors project id).answer = .ok chain ∧ chain.Nodup ∧
      ∀ i, chain.reverse[i]? = g.lineage project id i) ∨
    ∃ loop, (g.ancestors project id).answer = .error (.cyclic loop) ∧
      g.IsLoop project id loop := by
  rcases g.outcome_ancestors project id with hchain | hloop | ⟨fault, -, hbreaks⟩
  · exact Or.inl hchain
  · exact Or.inr hloop
  · exact absurd hbreaks hkeys.not_breaksOff

/-- A list that lists the lineage is finite, and so is the lineage. -/
theorem ends_of_reverse {chain : List EntityId}
    (h : ∀ i, chain.reverse[i]? = g.lineage project id i) : g.Ends project id := by
  refine ⟨chain.length, ?_⟩
  rw [← h, List.getElem?_eq_none_iff]
  exact Nat.le_of_eq List.length_reverse

section Visits

variable {σ : Type} {visit : EntityId → Visit σ Unit}

theorem outcome_visitAncestors_of_ok {chain : List EntityId}
    (h : (g.ancestors project id).answer = .ok chain) (s : σ) :
    ((g.visitAncestors project id visit).outcome s).value =
      (Visit.outcome (chain.forM visit) s).value := by
  rw [visitAncestors, Visit.outcome_ofQuery_bind, h]

/-- A walk that meets a fault visits nothing. -/
theorem outcome_visitAncestors_of_error {fault : Fault}
    (h : (g.ancestors project id).answer = .error fault) (s : σ) :
    ((g.visitAncestors project id visit).outcome s).value = (.error fault, s) := by
  rw [visitAncestors, Visit.outcome_ofQuery_bind, h]

end Visits

/-- The ancestors of an entity are its lineage, the eldest first, if the lineage ends; otherwise the
answer is the fault of a loop, which is told by its paths if these can be told at all. The visitor
is called on the ancestors in their order, and on nothing if there is a fault. -/
theorem ancestors_of_lineage (hkeys : g.HasKeyParents project id) :
    (g.Ends project id → ∃ chain, (g.ancestors project id).answer = .ok chain ∧ chain.Nodup ∧
      (∀ i, chain.reverse[i]? = g.lineage project id i) ∧
      ∀ (σ : Type) (visit : EntityId → Visit σ Unit) (s : σ),
        ((g.visitAncestors project id visit).outcome s).value =
          (Visit.outcome (chain.forM visit) s).value) ∧
    (¬ g.Ends project id → ∃ followed fault, g.IsLoop project id followed ∧
      fault = (if followed.all ElementPath.isWritable then Fault.cyclicInheritance followed
        else .numberTooLong) ∧
      (g.ancestors project id).answer = .error fault ∧
      ∀ (σ : Type) (visit : EntityId → Visit σ Unit) (s : σ),
        ((g.visitAncestors project id visit).outcome s).value = (.error fault, s)) := by
  rcases answer_ancestors hkeys with
    ⟨chain, hchain, hnodup, hlineage⟩ | ⟨loop, hfault, hloop⟩
  · constructor
    · intro _
      exact ⟨chain, hchain, hnodup, hlineage, fun _ _ s ↦ outcome_visitAncestors_of_ok hchain s⟩
    · intro hendless
      exact absurd (ends_of_reverse hlineage) hendless
  · constructor
    · intro hends
      exact absurd hends hloop.not_ends
    · intro _
      exact ⟨loop, .cyclic loop, hloop, rfl, hfault,
        fun _ _ s ↦ outcome_visitAncestors_of_error hfault s⟩

/-! ## A lineage that ends and one that does not -/

/-- A module named by a whole number: the first entity inherits from the second, and the third from
itself. -/
def crossroads (n : Int) : Graph where
  project :=
    { modules := [(.int n, { entities := [(.str "A", ⟨0⟩), (.str "B", ⟨1⟩), (.str "C", ⟨2⟩)] })] }
  pool := [{ parent := some ⟨.int n, .str "B"⟩ }, {}, { parent := some ⟨.int n, .str "C"⟩ }]

variable {n : Int}

/-- What has a parent path is in the pool, since the blank entity has none. -/
theorem entity_mem_pool {path : ElementPath} (h : (g.entity id).parent = some path) :
    g.entity id ∈ g.pool := by
  rw [entity, List.getD_eq_getElem?_getD] at h ⊢
  cases hget : g.pool[id.index]? with
  | none =>
    rw [hget] at h
    cases h
  | some e => exact List.mem_of_getElem? hget

theorem hasKeyParents_crossroads :
    (crossroads n).HasKeyParents (crossroads n).project id := by
  have hparents : ∀ e ∈ (crossroads n).pool, ∀ path, e.parent = some path →
      path.moduleName.isKey = true ∧ path.name.isKey = true := by
    simp [crossroads, Value.isKey]
  intro e _ path hpath
  exact hparents _ (entity_mem_pool hpath) path hpath

theorem follow_crossroads :
    follow (crossroads n).project ⟨.int n, .str "B"⟩ = .ok (some ⟨1⟩) ∧
      follow (crossroads n).project ⟨.int n, .str "C"⟩ = .ok (some ⟨2⟩) := by
  have hsame : (Number.int n).same (.int n) = true := by
    rw [Number.same, beq_self_eq_true, Bool.or_true]
  constructor
  · simp [follow, crossroads, Project.findEntity, ElementPath.isComplete, Value.isNull, Table.get,
      Table.find?, Value.isKey, Value.same, Value.number?, hsame]
  · simp [follow, crossroads, Project.findEntity, ElementPath.isComplete, Value.isNull, Table.get,
      Table.find?, Value.isKey, Value.same, Value.number?, hsame]

theorem ends_crossroads : (crossroads n).Ends (crossroads n).project ⟨0⟩ := by
  have hfirst : (crossroads n).parentOf (crossroads n).project ⟨0⟩ = some ⟨1⟩ := by
    change (match follow (crossroads n).project ⟨.int n, .str "B"⟩ with
      | .ok found => found
      | .error _ => none) = _
    rw [follow_crossroads.1]
  refine ⟨2, ?_⟩
  rw [lineage_succ, lineage_succ, lineage_zero, Option.bind_some, hfirst]
  rfl

theorem not_ends_crossroads : ¬ (crossroads n).Ends (crossroads n).project ⟨2⟩ := by
  have hself : (crossroads n).parentOf (crossroads n).project ⟨2⟩ = some ⟨2⟩ := by
    change (match follow (crossroads n).project ⟨.int n, .str "C"⟩ with
      | .ok found => found
      | .error _ => none) = _
    rw [follow_crossroads.2]
  have hstays : ∀ i, (crossroads n).lineage (crossroads n).project ⟨2⟩ i = some ⟨2⟩ := by
    intro i
    induction i with
    | zero => rfl
    | succ i ih => rw [lineage_succ, ih, Option.bind_some, hself]
  rintro ⟨i, hi⟩
  rw [hstays] at hi
  cases hi

theorem ancestors_of_lineage_crossroads :
    (∃ chain, ((crossroads 7).ancestors (crossroads 7).project ⟨0⟩).answer = .ok chain ∧
      ∀ i, chain.reverse[i]? = (crossroads 7).lineage (crossroads 7).project ⟨0⟩ i) ∧
    ∃ followed fault, (crossroads 7).IsLoop (crossroads 7).project ⟨2⟩ followed ∧
      ((crossroads 7).ancestors (crossroads 7).project ⟨2⟩).answer = .error fault := by
  obtain ⟨chain, hchain, -, hlineage, -⟩ :=
    (ancestors_of_lineage hasKeyParents_crossroads).1 ends_crossroads
  obtain ⟨followed, fault, hloop, -, hfault, -⟩ :=
    (ancestors_of_lineage hasKeyParents_crossroads).2 not_ends_crossroads
  exact ⟨⟨chain, hchain, hlineage⟩, followed, fault, hloop, hfault⟩

/-- A number with one digit too many: the lineage of the third entity does not end, and the fault is
not that of a loop. -/
theorem ancestors_crossroads_ne_cyclicInheritance :
    (crossroads (tenTo Integer.digitLimit)).HasKeyParents
        (crossroads (tenTo Integer.digitLimit)).project ⟨2⟩ ∧
      ¬ (crossroads (tenTo Integer.digitLimit)).Ends
        (crossroads (tenTo Integer.digitLimit)).project ⟨2⟩ ∧
      ∀ followed, ((crossroads (tenTo Integer.digitLimit)).ancestors
        (crossroads (tenTo Integer.digitLimit)).project ⟨2⟩).answer ≠
          .error (.cyclicInheritance followed) := by
  refine ⟨hasKeyParents_crossroads, not_ends_crossroads, ?_⟩
  generalize hn : ((tenTo Integer.digitLimit : Nat) : Int) = n
  have hlong : Integer.isWritable n = false := by
    rw [← hn, Integer.isWritable, Int.natAbs_natCast]
    exact decide_eq_false (Nat.lt_irrefl _)
  intro followed hanswer
  have hkeys : (crossroads n).HasKeyParents (crossroads n).project ⟨2⟩ := hasKeyParents_crossroads
  rcases answer_ancestors hkeys with
    ⟨chain, hchain, -, hlineage⟩ | ⟨loop, hloop, hisLoop⟩
  · exact not_ends_crossroads (ends_of_reverse hlineage)
  · obtain ⟨_, hpositive, -⟩ := hisLoop.back
    have hzero : 0 < loop.length := Nat.zero_lt_of_lt hpositive
    obtain ⟨e, he, hpath, -⟩ := hisLoop.paths 0 loop[0] (List.getElem?_eq_getElem hzero)
    cases he
    have hfirst : loop[0] = ⟨.int n, .str "C"⟩ := (Option.some.inj hpath).symm
    have hall : ¬ loop.all ElementPath.isWritable = true := by
      intro hall
      have hwritable := List.all_eq_true.mp hall loop[0] (List.getElem_mem hzero)
      rw [hfirst, ElementPath.isWritable, Value.isWritable, hlong] at hwritable
      cases hwritable
    rw [hanswer, Fault.cyclic, if_neg hall] at hloop
    cases hloop

end Graph

end EntityGraph
