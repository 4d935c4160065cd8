import EntityGraph.Proofs.Check.References
import EntityGraph.Proofs.Graph.Resolution
import EntityGraph.Proofs.Pointer

/-!
# Issues at pointers of their own

No two reference issues of a graph stand at one pointer, so the pointer tells which of the places is
meant. Pointers are told apart by their tokens, and the tokens of a place name its entity and then
where in the entity it is. One pair of places is left that this does not tell apart: a parent path
and the lineage of the same entity are both reported at the parent. There it is the graph that
decides. A parent path that leads to no entity is where the lineage ends, so the two are never
broken together.
-/

namespace EntityGraph

/-- No name occurs twice among the modules, among the entities of a module, or among the fields or
the bindings of an entity. -/
structure Graph.HasDistinctNames (g : Graph) : Prop where
  modules : g.project.modules.names.Nodup
  entities : ∀ m ∈ g.project.modules, m.2.entities.names.Nodup
  fields : ∀ id ∈ g.project.identities, (g.entity id).fields.names.Nodup
  bindings : ∀ id ∈ g.project.identities, (g.entity id).bindings.names.Nodup

/-- Texts that are written alike are the same text. -/
theorem Value.eq_of_plain_eq {v w : Value} (hv : v.isText = true) (hw : w.isText = true)
    (h : v.plain = w.plain) : v = w := by
  obtain ⟨s, rfl⟩ := isText_iff.mp hv
  obtain ⟨t, rfl⟩ := isText_iff.mp hw
  exact congrArg Value.str h

namespace References

variable {g : Graph} {owner : ElementPath} {id : EntityId} {e : Entity}

/-! ## Tokens of places -/

/-- The tokens of a place below its entity. -/
def Place.part (place : Place) : List Text :=
  match place.site with
  | .parent _ | .lineage => ["parent"]
  | .response _ => ["response"]
  | .member table name _ => [table, name.plain]

theorem Place.pointer_eq (place : Place) : place.pointer = Pointer.ofTokens
    (("modules" : Text) :: place.owner.moduleName.plain :: "entities" ::
      place.owner.name.plain :: place.part) := by
  obtain ⟨owner, id, site⟩ := place
  rcases site with path | path | ⟨table, name, type⟩ | - <;> rfl

/-- Places at one pointer are in entities of one path and at the same part of them. -/
theorem Place.pointer_eq_iff {place other : Place} : place.pointer = other.pointer ↔
    (place.owner.moduleName.plain = other.owner.moduleName.plain ∧
      place.owner.name.plain = other.owner.name.plain) ∧ place.part = other.part := by
  rw [pointer_eq, pointer_eq, Pointer.ofTokens_inj]
  simp only [List.cons.injEq, true_and, and_assoc]

/-! ## Places that are told apart -/

/-- Two places are told apart if one pointer is not reported for both of them. -/
def ToldApart (g : Graph) (place other : Place) : Prop :=
  place.pointer = other.pointer → IsSound g place ∨ IsSound g other

namespace Reports

variable {before : List Place} {issues : List Issue}

/-- An issue is about a place that is not sound. -/
theorem exists_place_of_mem (h : Reports g before issues) {i : Issue} (hi : i ∈ issues) :
    ∃ place ∈ before, ¬ IsSound g place ∧ i.pointer = place.pointer := by
  induction h with
  | nil => exact absurd hi List.not_mem_nil
  | broken hbroken hpointer _ ih =>
    rcases List.mem_cons.mp hi with rfl | hi
    · exact ⟨_, List.mem_cons_self, fun hsound ↦ hsound _ _ hbroken, hpointer⟩
    · obtain ⟨place, hplace, hissue⟩ := ih hi
      exact ⟨place, List.mem_cons_of_mem _ hplace, hissue⟩
  | sound _ _ ih =>
    obtain ⟨place, hplace, hissue⟩ := ih hi
    exact ⟨place, List.mem_cons_of_mem _ hplace, hissue⟩

/-- The issues of places that are told apart have pointers of their own. -/
theorem nodup_pointers (h : Reports g before issues) (hapart : before.Pairwise (ToldApart g)) :
    (issues.map (·.pointer)).Nodup := by
  induction h with
  | nil => exact List.nodup_nil
  | broken hbroken hpointer hrest ih =>
    obtain ⟨hfirst, hothers⟩ := List.pairwise_cons.mp hapart
    rw [List.map_cons, List.nodup_cons]
    refine ⟨?_, ih hothers⟩
    rw [List.mem_map]
    rintro ⟨other, hother, hsame⟩
    obtain ⟨place, hplace, hunsound, hat⟩ := hrest.exists_place_of_mem hother
    have hpointers := hpointer.symm.trans (hsame.symm.trans hat)
    rcases hfirst place hplace hpointers with hsound | hsound
    · exact hsound _ _ hbroken
    · exact hunsound hsound
  | sound _ _ ih => exact ih (List.pairwise_cons.mp hapart).2

end Reports

/-! ## The places of an entity -/

/-- The lineage of an entity ends at a parent path that leads to no entity. -/
theorem isSound_parent_or_lineage {path : ElementPath} (htextual : path.IsTextual)
    (hparent : (g.entity id).parent = some path) :
    IsSound g ⟨owner, id, .parent path⟩ ∨ IsSound g ⟨owner, id, .lineage⟩ := by
  rcases Project.findEntity_cases (p := g.project) htextual with hfound | ⟨hnone, -⟩
  · exact Or.inl (isSound_parent_iff.mpr hfound)
  · have hends : g.Ends g.project id := by
      refine ⟨1, ?_⟩
      rw [Graph.lineage, Graph.lineage, Option.bind_some, Graph.parentOf, hparent]
      simp only [Graph.follow, hnone]
    right
    rintro severity finding ⟨⟩
    contradiction

theorem owner_of_mem_placesOf {place : Place} (h : place ∈ placesOf owner id e) :
    place.owner = owner := by
  simp only [placesOf, pathsOf, membersOf, List.mem_append, List.mem_map,
    List.mem_singleton] at h
  rcases h with (((⟨_, -, rfl⟩ | ⟨_, -, rfl⟩) | ⟨_, -, rfl⟩) | ⟨_, -, rfl⟩) | rfl <;> rfl

/-- The members of a table are told apart by their names. -/
theorem pairwise_membersOf {table : String} {fields : Table Field}
    (htexts : ∀ f ∈ fields, f.1.isText = true) (hnames : fields.names.Nodup) :
    (membersOf owner id table fields).Pairwise fun a b ↦ a.pointer ≠ b.pointer := by
  rw [membersOf, List.pairwise_map]
  refine (List.pairwise_map.mp hnames).imp_of_mem fun {f f'} hf hf' hne hpointer ↦ hne ?_
  have hpart := (Place.pointer_eq_iff.mp hpointer).2
  simp only [Place.part, List.cons.injEq, true_and, and_true] at hpart
  exact Value.eq_of_plain_eq (htexts f hf) (htexts f' hf') hpart

/-- Where the first tokens differ, so do the pointers. -/
theorem pointer_ne_of_head {place other : Place} (h : place.part.head? ≠ other.part.head?) :
    place.pointer ≠ other.pointer :=
  fun hpointer ↦ h (congrArg List.head? (Place.pointer_eq_iff.mp hpointer).2)

/-- The places of an entity that hold paths are in four groups, and each group has a first token
of its own. -/
theorem pairwise_pathsOf (h : e.IsTextual) (hfields : e.fields.names.Nodup)
    (hbindings : e.bindings.names.Nodup) :
    (pathsOf owner id e).Pairwise fun a b ↦ a.pointer ≠ b.pointer := by
  have hsingle (r : Place → Place → Prop) (path : Option ElementPath)
      (place : ElementPath → Place) : (path.toList.map place).Pairwise r := by
    cases path with
    | none => exact .nil
    | some path => exact List.pairwise_singleton _ _
  rw [pathsOf, List.pairwise_append, List.pairwise_append, List.pairwise_append]
  refine ⟨⟨⟨hsingle _ _ _, hsingle _ _ _, ?_⟩, ?_, ?_⟩, ?_, ?_⟩
  · simp only [List.mem_map]
    rintro _ ⟨_, -, rfl⟩ _ ⟨_, -, rfl⟩
    exact pointer_ne_of_head (by simp [Place.part])
  · exact pairwise_membersOf (fun f hf ↦ (h.fields f hf).1) hfields
  · simp only [membersOf, List.mem_append, List.mem_map]
    rintro _ (⟨_, -, rfl⟩ | ⟨_, -, rfl⟩) _ ⟨_, -, rfl⟩ <;>
      exact pointer_ne_of_head (by simp [Place.part])
  · exact pairwise_membersOf (fun f hf ↦ (h.bindings f hf).1) hbindings
  · simp only [membersOf, List.mem_append, List.mem_map]
    rintro _ ((⟨_, -, rfl⟩ | ⟨_, -, rfl⟩) | ⟨_, -, rfl⟩) _ ⟨_, -, rfl⟩ <;>
      exact pointer_ne_of_head (by simp [Place.part])

/-- Of the places of an entity only its parent and its lineage are at one pointer, and one of the
two is sound. -/
theorem pairwise_placesOf (h : (g.entity id).IsTextual)
    (hfields : (g.entity id).fields.names.Nodup)
    (hbindings : (g.entity id).bindings.names.Nodup) :
    (placesOf owner id (g.entity id)).Pairwise (ToldApart g) := by
  rw [placesOf, List.pairwise_append]
  refine ⟨(pairwise_pathsOf h hfields hbindings).imp fun hne heq ↦ absurd heq hne,
    List.pairwise_singleton _ _, ?_⟩
  have hother {place : Place} (hne : place.part.head? ≠ some ("parent" : Text)) :
      ToldApart g place ⟨owner, id, .lineage⟩ :=
    fun hpointer ↦ absurd hpointer (pointer_ne_of_head hne)
  simp only [pathsOf, membersOf, List.mem_append, List.mem_map, List.mem_singleton,
    Option.mem_toList]
  rintro _ (((⟨path, hparent, rfl⟩ | ⟨_, -, rfl⟩) | ⟨_, -, rfl⟩) | ⟨_, -, rfl⟩) _ rfl
  · exact fun _ ↦ isSound_parent_or_lineage (h.parent path hparent) hparent
  · exact hother (by simp [Place.part])
  · exact hother (by simp [Place.part])
  · exact hother (by simp [Place.part])

/-! ## The places of a graph -/

theorem isText_of_mem_flatEntities (h : g.IsTextual) {entry : ElementPath × EntityId}
    (hentry : entry ∈ g.project.flatEntities) :
    entry.1.moduleName.isText = true ∧ entry.1.name.isText = true := by
  obtain ⟨m, hm, hmem⟩ := List.mem_flatMap.mp hentry
  obtain ⟨e, he, rfl⟩ := List.mem_map.mp hmem
  exact ⟨h.modules m hm, h.names m hm e he⟩

theorem nodup_paths (h : g.IsTextual) (hnames : g.HasDistinctNames) :
    (g.project.flatEntities.map (·.1)).Nodup := by
  have hmodules : g.project.modules.HasTextNames :=
    ⟨List.forall_mem_map.mpr h.modules, hnames.modules⟩
  have hlisting : IsListingOf g.project.findEntity g.project.flatEntities :=
    Project.isListingOf hmodules fun m hm ↦
      ⟨List.forall_mem_map.mpr (h.names m hm), hnames.entities m hm⟩
  exact hlisting.nodup

/-- Places of different entities are told apart by the paths of the entities. -/
theorem pairwise_places (h : g.IsTextual) (hnames : g.HasDistinctNames) :
    (places g).Pairwise (ToldApart g) := by
  rw [places, List.pairwise_flatMap]
  constructor
  · intro entry hentry
    have hid : entry.2 ∈ g.project.identities := List.mem_map_of_mem hentry
    exact pairwise_placesOf (h.entities _ hid) (hnames.fields _ hid) (hnames.bindings _ hid)
  · refine (List.pairwise_map.mp (nodup_paths h hnames)).imp_of_mem ?_
    intro entry entry' hentry hentry' hne place hplace other hother hpointer
    refine absurd ?_ hne
    obtain ⟨hmodule, hname⟩ := (Place.pointer_eq_iff.mp hpointer).1
    rw [owner_of_mem_placesOf hplace, owner_of_mem_placesOf hother] at hmodule hname
    obtain ⟨htext, htext'⟩ := isText_of_mem_flatEntities h hentry
    obtain ⟨hsecond, hsecond'⟩ := isText_of_mem_flatEntities h hentry'
    rw [ElementPath.mk.injEq]
    exact ⟨Value.eq_of_plain_eq htext hsecond hmodule,
      Value.eq_of_plain_eq htext' hsecond' hname⟩

end References

/-- The reference issues of a textual graph have pointers of their own: there is at most one for
each place, and no entity has one about its parent path and another about its lineage. -/
theorem nodup_pointers_referenceIssues {g : Graph} (h : g.IsTextual)
    (hnames : g.HasDistinctNames) :
    ∃ issues, (referenceIssues g).answer = .ok issues ∧ (issues.map (·.pointer)).Nodup ∧
      References.Reports g (References.places g) issues ∧
      ∀ entry ∈ g.project.flatEntities, ∀ path, (g.entity entry.2).parent = some path →
        References.IsSound g ⟨entry.1, entry.2, .parent path⟩ ∨
          References.IsSound g ⟨entry.1, entry.2, .lineage⟩ := by
  obtain ⟨issues, hissues, hreports⟩ := References.reports_ofEntities h fun _ hentry ↦ hentry
  refine ⟨issues, hissues, hreports.nodup_pointers (References.pairwise_places h hnames),
    hreports, fun entry hentry path hparent ↦ ?_⟩
  have hid := (References.isTextual_of_mem h hentry).2
  exact References.isSound_parent_or_lineage ((h.entities _ hid).parent path hparent) hparent

/-! ## A graph with slashes in its names -/

namespace References

/-- An entity that refers to nothing that is there, in a field without a name among others. -/
def strayEntity : Entity where
  parent := some ⟨.str "a", .null⟩
  response := some ⟨.str "a/b", .str "d"⟩
  fields :=
    [(.str "", { type := .object ⟨.null, .null⟩ }),
      (.str "~1", { type := .list (.object ⟨.null, .null⟩) })]
  bindings := [(.str "", { type := .enumeration ⟨.str "a", .str "b/c"⟩ })]

/-- Two entities whose paths would be written alike if slashes were left as they are. -/
def slashedGraph : Graph where
  project :=
    { modules := [(.str "a", { entities := [(.str "b/entities/c", ⟨0⟩)] }),
        (.str "a/entities/b", { entities := [(.str "c", ⟨1⟩)] })] }
  pool := [strayEntity, strayEntity]

theorem entity_slashedGraph {id : EntityId} (hid : id ∈ slashedGraph.project.identities) :
    slashedGraph.entity id = strayEntity := by
  have hid' : id = ⟨0⟩ ∨ id = ⟨1⟩ := by
    simpa [slashedGraph, Project.identities, Project.flatEntities] using hid
  rcases hid' with rfl | rfl <;> rfl

theorem isTextual_slashedGraph : slashedGraph.IsTextual where
  modules := by simp [slashedGraph, Value.isText]
  names := by simp [slashedGraph, Value.isText]
  entities := by
    intro id hid
    rw [entity_slashedGraph hid]
    constructor
    · simp [strayEntity, ElementPath.IsTextual, Value.isText]
    · simp [strayEntity, ElementPath.IsTextual, Value.isText]
    · simp [strayEntity, FieldType.IsTextual, FieldType.core, ElementPath.IsTextual, Value.isText]
    · simp [strayEntity, FieldType.IsTextual, FieldType.core, ElementPath.IsTextual, Value.isText]

theorem hasDistinctNames_slashedGraph : slashedGraph.HasDistinctNames where
  modules := by simp [slashedGraph, Table.names]
  entities := by simp [slashedGraph, Table.names]
  fields := by
    intro id hid
    simp [entity_slashedGraph hid, strayEntity, Table.names]
  bindings := by
    intro id hid
    simp [entity_slashedGraph hid, strayEntity, Table.names]

theorem nodup_pointers_slashedGraph :
    slashedGraph.IsTextual ∧ slashedGraph.HasDistinctNames ∧
      ∃ issues, (referenceIssues slashedGraph).answer = .ok issues ∧
        (issues.map (·.pointer)).Nodup ∧ Reports slashedGraph (places slashedGraph) issues ∧
        ∀ entry ∈ slashedGraph.project.flatEntities, ∀ path,
          (slashedGraph.entity entry.2).parent = some path →
            IsSound slashedGraph ⟨entry.1, entry.2, .parent path⟩ ∨
              IsSound slashedGraph ⟨entry.1, entry.2, .lineage⟩ :=
  ⟨isTextual_slashedGraph, hasDistinctNames_slashedGraph,
    nodup_pointers_referenceIssues isTextual_slashedGraph hasDistinctNames_slashedGraph⟩

end References

end EntityGraph
