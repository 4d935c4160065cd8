import EntityGraph.Proofs.Graph.Chains
import EntityGraph.Proofs.Graph.Lineage

/-!
# Open generic parameters

The parameters that are open at an entity are computed by a walk down its chain, which filters what
it has collected at every entity it comes to. What is open in the end can be said of each parameter
by itself: a parameter that an entity of the chain introduces is open exactly if neither that entity
nor any below it binds it. Nothing is reordered or left out on the way, so a parameter that is
introduced twice is open twice.
-/

namespace EntityGraph.Graph

/-- Whether an entity has a binding for a parameter. -/
def binds (g : Graph) (id : EntityId) (parameter : Value) : Bool :=
  ((g.entity id).bindings.find? parameter).isSome

/-- Of some parameters, those that none of the entities binds. -/
def unboundIn (g : Graph) (ids : List EntityId) (parameters : List Value) : List Value :=
  parameters.filter fun parameter ↦ ids.all fun id ↦ !g.binds id parameter

/-- The parameters that the first entity of a chain introduces and that nobody in the chain
binds. -/
def openFromFirst (g : Graph) : List EntityId → List Value
  | [] => []
  | id :: below => g.unboundIn (id :: below) (g.entity id).localGenerics

/-- The parameters that are open after a chain: for each entity in turn, those that it introduces
and that neither it nor any entity below it binds. -/
def openAlong (g : Graph) (chain : List EntityId) : List Value :=
  chain.tails.flatMap g.openFromFirst

/-- Every parameter that the fields of some entities mention can be looked up. -/
def HasKeyGenerics (g : Graph) (ids : List EntityId) : Prop :=
  ∀ id ∈ ids, ∀ parameter ∈ (g.entity id).localGenerics, parameter.isKey = true

variable {g : Graph}

/-! ## Filtering along a chain -/

theorem unboundIn_nil (parameters : List Value) : g.unboundIn [] parameters = parameters := by
  rw [unboundIn]
  exact List.filter_eq_self.mpr fun _ _ ↦ rfl

theorem unboundIn_append (ids : List EntityId) (ps qs : List Value) :
    g.unboundIn ids (ps ++ qs) = g.unboundIn ids ps ++ g.unboundIn ids qs :=
  List.filter_append ps qs

/-- What some entities leave unbound, filtered by one more. -/
theorem unboundIn_cons (id : EntityId) (ids : List EntityId) (parameters : List Value) :
    g.unboundIn (id :: ids) parameters = g.unboundIn ids (g.unboundIn [id] parameters) := by
  rw [unboundIn, unboundIn, unboundIn, List.filter_filter]
  refine List.filter_congr fun parameter _ ↦ ?_
  rw [List.all_cons, List.all_cons, List.all_nil, Bool.and_true, Bool.and_comm]

theorem openAlong_cons (id : EntityId) (below : List EntityId) :
    g.openAlong (id :: below) =
      g.unboundIn (id :: below) (g.entity id).localGenerics ++ g.openAlong below := by
  rw [openAlong, List.tails, List.flatMap_cons]
  rfl

/-- What is open after a chain is open above some place in it and not bound from there on, or it is
introduced from there on. -/
theorem openAlong_append (above below : List EntityId) :
    g.openAlong (above ++ below) = g.unboundIn below (g.openAlong above) ++ g.openAlong below := by
  induction above with
  | nil => rfl
  | cons id above ih =>
    have hsplit (parameters : List Value) : g.unboundIn (id :: above ++ below) parameters =
        g.unboundIn below (g.unboundIn (id :: above) parameters) := by
      rw [unboundIn, unboundIn, unboundIn, List.filter_filter]
      refine List.filter_congr fun parameter _ ↦ ?_
      rw [List.all_append, Bool.and_comm]
    rw [List.cons_append, openAlong_cons, openAlong_cons, ih, unboundIn_append, List.append_assoc,
      ← List.cons_append, hsplit]

/-! ## The walk -/

/-- The names that a table does not have, among names that can be looked up. -/
theorem unbound_eq_ok {id : EntityId} {parameters : List Value}
    (h : ∀ parameter ∈ parameters, parameter.isKey = true) :
    unbound (g.entity id).bindings parameters = .ok (g.unboundIn [id] parameters) := by
  induction parameters with
  | nil => rfl
  | cons parameter parameters ih =>
    obtain ⟨hkey, hrest⟩ := List.forall_mem_cons.mp h
    rw [unbound, Table.get, if_pos hkey, ok_bind, ih hrest]
    cases hfound : (g.entity id).bindings.find? parameter with
    | some f => simp [unboundIn, binds, hfound]
    | none => simp [unboundIn, binds, hfound, pure, Except.pure]

theorem isKey_of_mem_unboundIn {ids : List EntityId} {parameters : List Value}
    (h : ∀ parameter ∈ parameters, parameter.isKey = true) :
    ∀ parameter ∈ g.unboundIn ids parameters, parameter.isKey = true :=
  fun parameter hmem ↦ h parameter (List.mem_of_mem_filter hmem)

/-- The walk down a chain leaves of what it starts with whatever nobody binds, and adds what is open
along the chain. -/
theorem openAfter_eq_ok {chain : List EntityId} {parameters : List Value}
    (h : ∀ parameter ∈ parameters, parameter.isKey = true) (hchain : g.HasKeyGenerics chain) :
    g.openAfter parameters chain = .ok (g.unboundIn chain parameters ++ g.openAlong chain) := by
  induction chain generalizing parameters with
  | nil =>
    rw [unboundIn_nil]
    exact congrArg Except.ok (List.append_nil parameters).symm
  | cons id below ih =>
    obtain ⟨hfirst, hbelow⟩ := List.forall_mem_cons.mp hchain
    have hhere : ∀ parameter ∈ parameters ++ (g.entity id).localGenerics,
        parameter.isKey = true := List.forall_mem_append.mpr ⟨h, hfirst⟩
    rw [openAfter, unbound_eq_ok hhere, ok_bind, ih (isKey_of_mem_unboundIn hhere) hbelow,
      ← unboundIn_cons, unboundIn_append, openAlong_cons, List.append_assoc]

theorem answer_unsolvedGenerics {p : Project EntityId} {chain : List EntityId} {id : EntityId}
    (h : g.IsChain (some p) chain id) (hkeys : g.HasKeyGenerics chain) :
    (g.unsolvedGenerics (some p) id).answer = .ok (g.openAlong chain) := by
  have hopen : g.openAfter [] chain = .ok (g.openAlong chain) :=
    openAfter_eq_ok (fun _ hmem ↦ absurd hmem List.not_mem_nil) hkeys
  rw [unsolvedGenerics, Query.answer_bind, h.answer_ancestors, ok_bind, Query.answer_ofExcept,
    hopen]

/-! ## Open parameters -/

/-- What is open at the entity that another inherits from; nothing if there is none. -/
def inheritedGenerics (g : Graph) (p : Project EntityId) (id : EntityId) :
    Except Fault (List Value) :=
  match g.parentOf (some p) id with
  | none => .ok []
  | some parent => (g.unsolvedGenerics (some p) parent).answer

/-- What is open at an entity is what is open at its parent and what it introduces itself, but for
what it binds. -/
theorem unsolvedGenerics_of_parent {p : Project EntityId} {chain : List EntityId} {id : EntityId}
    (h : g.IsChain (some p) chain id) (hkeys : g.HasKeyGenerics chain) :
    ∃ inherited, g.inheritedGenerics p id = .ok inherited ∧
      (g.unsolvedGenerics (some p) id).answer =
        .ok (g.unboundIn [id] (inherited ++ (g.entity id).localGenerics)) := by
  rw [answer_unsolvedGenerics h hkeys, inheritedGenerics, parentOf]
  cases h with
  | root hroot =>
    refine ⟨[], ?_, ?_⟩
    · cases hpath : (g.entity id).parent with
      | none => rfl
      | some path => simp only [hroot path hpath]
    · rw [openAlong_cons]
      exact congrArg Except.ok (List.append_nil _)
  | @child upper parent _ path hupper hpath hfollow =>
    refine ⟨g.openAlong upper, ?_, ?_⟩
    · simp only [hpath, hfollow]
      exact answer_unsolvedGenerics hupper fun e he ↦ hkeys e (List.mem_append_left _ he)
    · rw [openAlong_append, openAlong_cons, unboundIn_append]
      exact congrArg Except.ok (congrArg _ (List.append_nil _))

/-- What is open after a chain, split at one of its entities: what is left of the parameters that
were introduced there or above, and what is introduced below. -/
theorem openAlong_split (above below : List EntityId) (binder : EntityId) :
    ∃ upper, g.openAlong (above ++ binder :: below) = upper ++ g.openAlong below ∧
      ∀ parameter ∈ upper, g.binds binder parameter = false := by
  refine ⟨g.unboundIn (binder :: below) (g.openAlong above ++ (g.entity binder).localGenerics),
    ?_, ?_⟩
  · rw [openAlong_append, openAlong_cons, unboundIn_append, List.append_assoc]
  · intro parameter hmem
    have hunbound := List.all_eq_true.mp (List.mem_filter.mp hmem).2 binder List.mem_cons_self
    rw [Bool.not_eq_true'] at hunbound
    exact hunbound

/-- The generic parameters that are open at an entity with a chain are, for each entity of the chain
in turn, those that it introduces and that neither it nor any entity below it binds. The same comes
out of what is open at the parent. Wherever in the chain a parameter is bound, nothing is open of it
that was introduced there or above; what is introduced below is open whatever is bound there. -/
theorem unsolvedGenerics_of_isChain {p : Project EntityId} {chain : List EntityId} {id : EntityId}
    (h : g.IsChain (some p) chain id) (hkeys : g.HasKeyGenerics chain) :
    (g.unsolvedGenerics (some p) id).answer = .ok (g.openAlong chain) ∧
      (∃ inherited, g.inheritedGenerics p id = .ok inherited ∧
        (g.unsolvedGenerics (some p) id).answer =
          .ok ((inherited ++ (g.entity id).localGenerics).filter fun name ↦ !g.binds id name)) ∧
      ∀ above binder below, chain = above ++ binder :: below →
        ∃ upper, (g.unsolvedGenerics (some p) id).answer = .ok (upper ++ g.openAlong below) ∧
          ∀ parameter ∈ upper, g.binds binder parameter = false := by
  refine ⟨answer_unsolvedGenerics h hkeys, ?_, ?_⟩
  · obtain ⟨inherited, hinherited, hanswer⟩ := unsolvedGenerics_of_parent h hkeys
    refine ⟨inherited, hinherited, ?_⟩
    rw [hanswer, unboundIn]
    simp only [List.all_cons, List.all_nil, Bool.and_true]
  · intro above binder below hchain
    obtain ⟨upper, hsplit, hupper⟩ := g.openAlong_split above below binder
    refine ⟨upper, ?_, hupper⟩
    rw [answer_unsolvedGenerics h hkeys, hchain, hsplit]

/-! ## A parameter that is introduced again -/

/-- The eldest entity introduces one parameter twice and another one in between, the next binds the
first and introduces a third, and the youngest introduces the first again. -/
def reintroduced : Graph where
  project :=
    { modules := [(.str "m",
        { entities := [(.str "Child", ⟨2⟩), (.str "Middle", ⟨1⟩), (.str "Root", ⟨0⟩)] })] }
  pool :=
    [{ fields := [(.str "a", { type := .unknown (.str "T") }),
        (.str "b", { type := .unknown (.str "U") }), (.str "c", { type := .unknown (.str "T") })] },
      { parent := some ⟨.str "m", .str "Root"⟩
        fields := [(.str "d", { type := .unknown (.str "V") })]
        bindings := [(.str "T", { type := .primitive .string })] },
      { parent := some ⟨.str "m", .str "Middle"⟩
        fields := [(.str "e", { type := .unknown (.str "T") })] }]

theorem unsolvedGenerics_reintroduced :
    reintroduced.IsChain (some reintroduced.project) [⟨0⟩, ⟨1⟩, ⟨2⟩] ⟨2⟩ ∧
      reintroduced.HasKeyGenerics [⟨0⟩, ⟨1⟩, ⟨2⟩] ∧
      (reintroduced.unsolvedGenerics (some reintroduced.project) ⟨2⟩).answer =
        .ok [.str "U", .str "V", .str "T"] := by
  have hroot : reintroduced.IsChain (some reintroduced.project) [⟨0⟩] ⟨0⟩ :=
    .root fun path hpath ↦ by cases hpath
  have hmiddle : reintroduced.IsChain (some reintroduced.project) [⟨0⟩, ⟨1⟩] ⟨1⟩ :=
    .child hroot rfl rfl
  have hchain : reintroduced.IsChain (some reintroduced.project) [⟨0⟩, ⟨1⟩, ⟨2⟩] ⟨2⟩ :=
    .child hmiddle rfl rfl
  have hgenerics : [⟨0⟩, ⟨1⟩, ⟨2⟩].flatMap (fun id ↦ (reintroduced.entity id).localGenerics) =
      [.str "T", .str "U", .str "T", .str "V", .str "T"] := rfl
  have hkeys : reintroduced.HasKeyGenerics [⟨0⟩, ⟨1⟩, ⟨2⟩] := by
    rw [HasKeyGenerics, ← List.forall_mem_flatMap, hgenerics]
    simp [Value.isKey]
  refine ⟨hchain, hkeys, ?_⟩
  rw [(unsolvedGenerics_of_isChain hchain hkeys).1]
  rfl

end EntityGraph.Graph
