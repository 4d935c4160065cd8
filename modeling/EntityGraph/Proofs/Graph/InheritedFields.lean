import EntityGraph.Proofs.Graph.Chains
import EntityGraph.Proofs.Table.Updates

/-!
# Inherited fields

The fields that an entity has together with those it inherits are put into one table on the way down
its chain. A field takes the place of a field of the same name that came before it, so two things
are settled at different ends of the chain: where a name stands in the table is decided by the first
entity that declares it, and what stands there by the last. Both are said here without the walk, of
a chain from any entity in it onwards.
-/

namespace EntityGraph.Graph

/-- Whether an entity declares a field of a name. -/
def declares (g : Graph) (id : EntityId) (name : Value) : Bool :=
  ((g.entity id).fields.find? name).isSome

/-- The names that an entity declares and that none of the entities above it does, for each entity
of a chain in turn and in the order of declaration. -/
def firstDeclared (g : Graph) (above : List EntityId) : List EntityId → List Value
  | [] => []
  | id :: below =>
    ((g.entity id).fields.names.filter fun name ↦ !above.any fun e ↦ g.declares e name) ++
      g.firstDeclared (above ++ [id]) below

/-- The field that the last entity of a chain to declare a name has under it. -/
def lastDeclared? (g : Graph) (chain : List EntityId) (name : Value) : Option Field :=
  chain.reverse.findSome? fun id ↦ (g.entity id).fields.find? name

/-- The fields that each of some entities declares have names that are texts and differ. -/
def HasTextFields (g : Graph) (ids : List EntityId) : Prop :=
  ∀ id ∈ ids, (g.entity id).fields.HasTextNames

variable {g : Graph}

/-! ## The last to declare a name -/

theorem lastDeclared?_append_singleton (above : List EntityId) (id : EntityId) (name : Value) :
    g.lastDeclared? (above ++ [id]) name =
      ((g.entity id).fields.find? name).or (g.lastDeclared? above name) := by
  rw [lastDeclared?, List.reverse_append, List.reverse_singleton, List.singleton_append,
    List.findSome?_cons, lastDeclared?]
  cases (g.entity id).fields.find? name with
  | none => rfl
  | some f => rfl

/-- What is declared anywhere in a chain is declared by a last entity. -/
theorem isSome_lastDeclared? (chain : List EntityId) (name : Value) :
    (g.lastDeclared? chain name).isSome = chain.any fun id ↦ g.declares id name := by
  rw [lastDeclared?, List.isSome_findSome?, List.any_reverse]
  rfl

/-- A field that no entity below has another one for is the last. -/
theorem lastDeclared?_eq_some {above below : List EntityId} {id : EntityId} {name : Value}
    {f : Field} (hfield : (g.entity id).fields.find? name = some f)
    (hbelow : ∀ e ∈ below, g.declares e name = false) :
    g.lastDeclared? (above ++ id :: below) name = some f := by
  have hnone : (below.reverse.findSome? fun e ↦ (g.entity e).fields.find? name) = none := by
    rw [List.findSome?_eq_none_iff]
    intro e he
    have hundeclared := hbelow e (List.mem_reverse.mp he)
    rwa [declares, Option.isSome_eq_false_iff, Option.isNone_iff_eq_none] at hundeclared
  rw [lastDeclared?, List.reverse_append, List.reverse_cons, List.append_assoc,
    List.findSome?_append, hnone, List.singleton_append, List.findSome?_cons, hfield]
  rfl

/-! ## The walk down a chain -/

/-- The table of a walk that has come past some entities holds the last field that they declare
under each name. -/
structure Merged (g : Graph) (above : List EntityId) (t : Table Field) : Prop where
  names : t.HasTextNames
  find? : ∀ name, t.find? name = g.lastDeclared? above name

namespace Merged

variable {above chain : List EntityId} {t : Table Field} {id : EntityId}

theorem start : g.Merged [] [] where
  names := Table.HasTextNames.nil
  find? := fun _ ↦ rfl

theorem step (h : g.Merged above t) (hid : (g.entity id).fields.HasTextNames) :
    g.Merged (above ++ [id]) ((g.entity id).fields.foldl (fun t f ↦ t.insert f.1 f.2) t) where
  names := h.names.foldl_insert hid
  find? := by
    intro name
    rw [h.names.find?_foldl_insert hid, h.find?, lastDeclared?_append_singleton]

/-- The names that one entity adds are those that nobody above it declares. -/
theorem names_step (h : g.Merged above t) (hid : (g.entity id).fields.HasTextNames) :
    Table.names ((g.entity id).fields.foldl (fun t f ↦ t.insert f.1 f.2) t) =
      t.names ++ (g.entity id).fields.names.filter
        fun name ↦ !above.any fun e ↦ g.declares e name := by
  rw [h.names.names_foldl_insert hid]
  refine congrArg _ (List.filter_congr fun name _ ↦ ?_)
  rw [h.find?, isSome_lastDeclared?]

theorem run (h : g.Merged above t) (hchain : g.HasTextFields chain) :
    ∃ fields, chain.foldl
        (fun table e ↦ (g.entity e).fields.foldl (fun t f ↦ t.insert f.1 f.2) table) t = fields ∧
      g.Merged (above ++ chain) fields ∧
      fields.names = t.names ++ g.firstDeclared above chain := by
  induction chain generalizing above t with
  | nil =>
    refine ⟨t, rfl, ?_, (List.append_nil _).symm⟩
    rw [List.append_nil]
    exact h
  | cons id below ih =>
    obtain ⟨hid, hbelow⟩ := List.forall_mem_cons.mp hchain
    obtain ⟨fields, hfields, hmerged, hnames⟩ := ih (h.step hid) hbelow
    refine ⟨fields, hfields, ?_, ?_⟩
    · rw [← List.singleton_append, ← List.append_assoc]
      exact hmerged
    · rw [hnames, h.names_step hid, firstDeclared, List.append_assoc]

end Merged

/-- The table of a whole chain. -/
theorem merged_mergedFields {chain : List EntityId} (h : g.HasTextFields chain) :
    g.Merged chain (g.mergedFields chain) ∧
      (g.mergedFields chain).names = g.firstDeclared [] chain := by
  obtain ⟨fields, hfields, hmerged, hnames⟩ := Merged.start.run h
  rw [mergedFields, hfields]
  exact ⟨hmerged, hnames⟩

/-! ## Inherited fields -/

/-- The fields of an entity with a chain, those it inherits included, have each name that is
declared in the chain once. Under a name is the field of the last entity that declares it, so that
the fields of the entity itself are all there; the names stand in the order in which the chain first
declares them. -/
theorem allFields_of_isChain {project : Option (Project EntityId)} {chain : List EntityId}
    {id : EntityId} (h : g.IsChain project chain id) (hfields : g.HasTextFields chain) :
    ∃ fields, (g.allFields project id).answer = .ok fields ∧
      fields.names.Nodup ∧
      (∀ name, name ∈ fields.names ↔ ∃ e ∈ chain, name ∈ (g.entity e).fields.names) ∧
      (∀ above e below, chain = above ++ e :: below →
        ∀ name f, (name, f) ∈ (g.entity e).fields →
          (∀ d ∈ below, name ∉ (g.entity d).fields.names) → (name, f) ∈ fields) ∧
      (∀ f ∈ (g.entity id).fields, f ∈ fields) ∧
      fields.names = g.firstDeclared [] chain := by
  obtain ⟨hmerged, hnames⟩ := merged_mergedFields hfields
  have hlast : ∀ above e below, chain = above ++ e :: below →
      ∀ name f, (name, f) ∈ (g.entity e).fields →
        (∀ d ∈ below, name ∉ (g.entity d).fields.names) → (name, f) ∈ g.mergedFields chain := by
    rintro above e below hchain name f hf hbelow
    have hdeclared : ∀ d ∈ below, g.declares d name = false := by
      intro d hd
      have hd' : d ∈ chain := hchain ▸ List.mem_append_right _ (List.mem_cons_of_mem _ hd)
      rw [declares, (hfields d hd').find?_eq_none_iff.mpr (hbelow d hd)]
      rfl
    have he : e ∈ chain := hchain ▸ List.mem_append_right _ List.mem_cons_self
    rw [← hmerged.names.find?_eq_some_iff, hmerged.find?, hchain]
    exact lastDeclared?_eq_some ((hfields e he).find?_eq_some_iff.mpr hf) hdeclared
  refine ⟨g.mergedFields chain, ?_, hmerged.names.nodup, ?_, hlast, ?_, hnames⟩
  · rw [allFields, Query.answer_bind, h.answer_ancestors]
    rfl
  · intro name
    rw [← hmerged.names.isSome_find?_iff, hmerged.find?, isSome_lastDeclared?, List.any_eq_true]
    refine exists_congr fun e ↦ and_congr_right fun he ↦ ?_
    rw [declares, (hfields e he).isSome_find?_iff]
  · -- The entity is the last of its own chain, so that nobody is below it.
    rintro ⟨name, f⟩ hf
    obtain ⟨above, hchain⟩ := h.exists_eq_append
    exact hlast above id [] hchain name f hf fun d hd ↦ absurd hd List.not_mem_nil

/-! ## A name that is declared at several levels -/

/-- The eldest entity declares two fields, the next declares the second again and another one, and
the youngest declares the first again, a new one, and that of its parent. -/
def redeclared : Graph where
  project :=
    { modules := [(.str "m",
        { entities := [(.str "Child", ⟨2⟩), (.str "Middle", ⟨1⟩), (.str "Root", ⟨0⟩)] })] }
  pool :=
    [{ fields := [(.str "a", { type := .primitive .id }), (.str "b", { type := .primitive .id })] },
      { parent := some ⟨.str "m", .str "Root"⟩
        fields := [(.str "c", { type := .primitive .url }),
          (.str "b", { type := .primitive .url })] },
      { parent := some ⟨.str "m", .str "Middle"⟩
        fields := [(.str "d", { type := .primitive .long }),
          (.str "c", { type := .primitive .long }), (.str "a", { type := .primitive .long })] }]

theorem allFields_redeclared :
    redeclared.IsChain (some redeclared.project) [⟨0⟩, ⟨1⟩, ⟨2⟩] ⟨2⟩ ∧
      redeclared.HasTextFields [⟨0⟩, ⟨1⟩, ⟨2⟩] ∧
      ∃ fields, (redeclared.allFields (some redeclared.project) ⟨2⟩).answer = .ok fields ∧
        (.str "b", { type := .primitive .url }) ∈ fields ∧
        fields.names = [.str "a", .str "b", .str "c", .str "d"] := by
  have hroot : redeclared.IsChain (some redeclared.project) [⟨0⟩] ⟨0⟩ :=
    .root fun path hpath ↦ by cases hpath
  have hmiddle : redeclared.IsChain (some redeclared.project) [⟨0⟩, ⟨1⟩] ⟨1⟩ :=
    .child hroot rfl rfl
  have hchain : redeclared.IsChain (some redeclared.project) [⟨0⟩, ⟨1⟩, ⟨2⟩] ⟨2⟩ :=
    .child hmiddle rfl rfl
  have hfields : redeclared.HasTextFields [⟨0⟩, ⟨1⟩, ⟨2⟩] := by
    simp [HasTextFields, redeclared, entity, Table.hasTextNames_cons, Table.HasTextNames.nil,
      Table.names, Value.isText]
  obtain ⟨fields, hanswer, -, -, hlast, -, hnames⟩ := allFields_of_isChain hchain hfields
  refine ⟨hchain, hfields, fields, hanswer, ?_, hnames.trans rfl⟩
  refine hlast [⟨0⟩] ⟨1⟩ [⟨2⟩] rfl _ _ ?_ ?_
  · exact List.mem_cons_of_mem _ List.mem_cons_self
  · simp [redeclared, entity, Table.names]

end EntityGraph.Graph
