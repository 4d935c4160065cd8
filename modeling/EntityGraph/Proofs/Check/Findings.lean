import EntityGraph.Check.References
import EntityGraph.Proofs.Query

/-!
# What the check of references can find

The issues that can come up about an entity, in any graph: each is about one of the paths that the
entity itself holds, and stands at the pointer of that path. Whether an issue does come up depends
on where the path leads; how grave it is depends only on which of these it is.
-/

namespace EntityGraph

namespace References

/-- What can be found about the type of a field, at the pointer of the field. -/
inductive ConcernsType (t : FieldType) : Finding → Prop where
  | entityUnresolved {path : ElementPath} :
    t.core = .object path → ConcernsType t (.entityUnresolved path)
  | enumerationUnresolved {path : ElementPath} :
    t.core = .enumeration path → ConcernsType t (.enumerationUnresolved path)

/-- What can be found about an entity at a path. -/
inductive Concerns (path : ElementPath) (e : Entity) : Issue → Prop where
  | parentIsEnumeration {parent : ElementPath} : e.parent = some parent →
    Concerns path e
      ⟨.parentIsEnumeration parent path, Pointer.join (entityPointer path) "parent"⟩
  | parentUnresolved {parent : ElementPath} : e.parent = some parent →
    Concerns path e ⟨.parentUnresolved parent path, Pointer.join (entityPointer path) "parent"⟩
  | responseUnresolved {response : ElementPath} : e.response = some response →
    Concerns path e
      ⟨.responseUnresolved response path, Pointer.join (entityPointer path) "response"⟩
  | ofField {token : Text} {f : Field} {finding : Finding} : (.str token, f) ∈ e.fields →
    ConcernsType f.type finding → Concerns path e
      ⟨finding, Pointer.join (Pointer.join (entityPointer path) "fieldsLocal") token⟩
  | ofBinding {token : Text} {f : Field} {finding : Finding} : (.str token, f) ∈ e.bindings →
    ConcernsType f.type finding → Concerns path e
      ⟨finding, Pointer.join (Pointer.join (entityPointer path) "genericMap") token⟩
  | cyclicInheritance {parent : ElementPath} {followed : List ElementPath} :
    e.parent = some parent → Concerns path e
      ⟨.cyclicInheritance followed, Pointer.join (entityPointer path) "parent"⟩

/-- The findings that are errors: a parent that is an enumeration, and a chain that comes back. -/
theorem Concerns.severity_eq_error_iff {path : ElementPath} {e : Entity} {i : Issue}
    (h : Concerns path e i) : i.severity = .error ↔
      (∃ parent owner, i.finding = .parentIsEnumeration parent owner) ∨
        ∃ followed, i.finding = .cyclicInheritance followed := by
  cases h with
  | ofField _ h => cases h <;> simp [Issue.severity, Finding.severity]
  | ofBinding _ h => cases h <;> simp [Issue.severity, Finding.severity]
  | _ => simp [Issue.severity, Finding.severity]

/-! ## The check, entity by entity -/

section

variable {property : Issue → Prop}

theorem yields_issue {paths : List ElementPath} {finding : Finding} {pointer : Text}
    (h : property ⟨finding, pointer⟩) : YieldsAll property (issue paths finding pointer) := by
  rw [issue]
  exact .bind_right fun _ ↦ .singleton h

variable (p : Project EntityId) {path : ElementPath} {e : Entity}

theorem yields_ofParent {parent : Option ElementPath} (h : e.parent = parent) :
    YieldsAll (Concerns path e) (ofParent p path (entityPointer path) parent) := by
  cases parent with
  | none => exact .nil
  | some parent =>
    rw [ofParent]
    refine .bind_right fun found ↦ ?_
    cases found with
    | some id => exact .nil
    | none =>
      refine .bind_right fun found ↦ ?_
      cases found with
      | some _ => exact yields_issue (.parentIsEnumeration h)
      | none => exact yields_issue (.parentUnresolved h)

theorem yields_ofResponse {response : Option ElementPath} (h : e.response = response) :
    YieldsAll (Concerns path e) (ofResponse p path (entityPointer path) response) := by
  cases response with
  | none => exact .nil
  | some response =>
    rw [ofResponse]
    refine .bind_right fun found ↦ ?_
    cases found with
    | some id => exact .nil
    | none => exact yields_issue (.responseUnresolved h)

theorem yields_ofType {pointer : Text} {t : FieldType}
    (h : ∀ finding, ConcernsType t finding → property ⟨finding, pointer⟩) :
    YieldsAll property (ofType p pointer t) := by
  rw [ofType]
  split
  next target htarget =>
    refine .bind_right fun found ↦ ?_
    cases found with
    | some id => exact .nil
    | none => exact yields_issue (h _ (.entityUnresolved htarget))
  next target htarget =>
    refine .bind_right fun found ↦ ?_
    cases found with
    | some e => exact .nil
    | none => exact yields_issue (h _ (.enumerationUnresolved htarget))
  next => exact .nil

/-- Only a field whose name is a text has a pointer. -/
theorem yields_ofFields {pointer : Text} {fields : Table Field}
    (h : ∀ text f, (.str text, f) ∈ fields → ∀ finding, ConcernsType f.type finding →
      property ⟨finding, Pointer.join pointer text⟩) :
    YieldsAll property (ofFields p pointer fields) := by
  induction fields with
  | nil => exact .nil
  | cons f fields ih =>
    obtain ⟨name, f⟩ := f
    rw [ofFields]
    cases name with
    | str text =>
      rw [token, ok_bind]
      exact (yields_ofType p (h text f List.mem_cons_self)).append
        (ih fun text' f' hf' ↦ h text' f' (List.mem_cons_of_mem _ hf'))
    | _ => exact .error _

theorem yields_ofPaths : YieldsAll (Concerns path e) (ofPaths p path e) := by
  have hfields : YieldsAll (Concerns path e)
      (ofFields p (Pointer.join (entityPointer path) "fieldsLocal") e.fields) :=
    yields_ofFields p fun _ _ hf _ hfinding ↦ .ofField hf hfinding
  have hbindings : YieldsAll (Concerns path e)
      (ofFields p (Pointer.join (entityPointer path) "genericMap") e.bindings) :=
    yields_ofFields p fun _ _ hf _ hfinding ↦ .ofBinding hf hfinding
  rw [ofPaths]
  refine .bind_right fun _ ↦ ?_
  dsimp only
  refine (yields_ofParent p rfl).bind fun parents hparents ↦ ?_
  refine (yields_ofResponse p rfl).bind fun responses hresponses ↦ ?_
  refine hfields.bind fun fields hfields ↦ ?_
  refine hbindings.bind fun bindings hbindings ↦ .ok ?_
  simp only [List.forall_mem_append]
  exact ⟨⟨⟨hparents, hresponses⟩, hfields⟩, hbindings⟩

end

section

variable {g : Graph} {path : ElementPath} {id : EntityId}

/-- A walk from an entity without a parent ends at once. -/
theorem answer_ancestors_of_parent_eq_none (h : (g.entity id).parent = none) :
    (g.ancestors (some g.project) id).answer = .ok [id] := by
  rw [Graph.ancestors, Graph.climb, h]
  rfl

theorem answer_ofInheritance : (ofInheritance g path id).answer =
    match (g.ancestors (some g.project) id).answer with
    | .ok _ => .ok []
    | .error (.cyclicInheritance followed) =>
      .ok [⟨.cyclicInheritance followed, Pointer.join (entityPointer path) "parent"⟩]
    | .error fault => .error fault := by
  change Logged.value (match (g.ancestors (some g.project) id).answer with
    | .ok _ => _
    | .error (.cyclicInheritance followed) => _
    | .error fault => _) = _
  cases (g.ancestors (some g.project) id).answer with
  | ok chain => rfl
  | error fault => cases fault <;> rfl

theorem yields_ofInheritance :
    YieldsAll (Concerns path (g.entity id)) (ofInheritance g path id).answer := by
  rw [answer_ofInheritance]
  cases hparent : (g.entity id).parent with
  | none =>
    rw [answer_ancestors_of_parent_eq_none hparent]
    exact .nil
  | some parent =>
    split
    next => exact .nil
    next => exact .singleton (.cyclicInheritance hparent)
    next => exact .error _

theorem yields_ofEntities {entries : List (ElementPath × EntityId)} :
    YieldsAll (fun i ↦ ∃ entry ∈ entries, Concerns entry.1 (g.entity entry.2) i)
      (ofEntities g entries).answer := by
  induction entries with
  | nil => exact .nil
  | cons entry entries ih =>
    obtain ⟨path, id⟩ := entry
    rw [ofEntities]
    simp only [Query.answer_bind, Query.answer_ofExcept]
    refine (yields_ofPaths g.project).bind fun paths hpaths ↦ ?_
    refine yields_ofInheritance.bind fun inheritance hinheritance ↦ ?_
    refine ih.bind fun others hothers ↦ .ok ?_
    simp only [List.forall_mem_append]
    refine ⟨⟨fun i hi ↦ ?_, fun i hi ↦ ?_⟩, fun i hi ↦ ?_⟩
    · exact ⟨(path, id), List.mem_cons_self, hpaths i hi⟩
    · exact ⟨(path, id), List.mem_cons_self, hinheritance i hi⟩
    · obtain ⟨entry, hentry, hconcerns⟩ := hothers i hi
      exact ⟨entry, List.mem_cons_of_mem _ hentry, hconcerns⟩

end

end References

/-- Every reference issue of a graph concerns one of its entities, at a path that leads to it. -/
theorem yields_referenceIssues (g : Graph) :
    YieldsAll (fun i ↦ ∃ entry ∈ g.project.flatEntities,
      References.Concerns entry.1 (g.entity entry.2) i) (referenceIssues g).answer :=
  References.yields_ofEntities

end EntityGraph
