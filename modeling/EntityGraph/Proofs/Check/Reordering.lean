import EntityGraph.Check.Dropped
import EntityGraph.Proofs.Check.Findings
import EntityGraph.Proofs.Graph.Reordering

/-!
# Reports on documents in another order

Both reports go through the entries of a document or of a graph one after the other, and put
together what they find at each. So in another order they find the same issues, in another order:
it is enough that what is found at one entry does not depend on where the entry stands. For dropped
nodes it does not because the loaders do not, for reference issues because paths lead to the same.

The last section puts together what does not depend on the order of a document.
-/

namespace EntityGraph

variable {α β γ : Type}

/-! ## Issues in some order -/

/-- Steps that find the same in some order at related members find the same in some order
altogether. -/
theorem agree_collect_perm {r : α → β → Prop} {s : List α} {t : List β}
    {step : α → Except Fault (List γ)} {step' : β → Except Fault (List γ)}
    (h : Rearranged r s t) (hstep : ∀ a b, r a b → Agree List.Perm (step a) (step' b)) :
    Agree List.Perm (collect step s) (collect step' t) := by
  have hrearranged : ∀ a b, r a b → Agree (Rearranged Eq) (step a) (step' b) :=
    fun a b hab ↦ (hstep a b hab).imp fun _ _ hperm ↦ Rearranged.eq_iff.mpr hperm
  exact (agree_collect h hrearranged).imp fun _ _ hall ↦ Rearranged.eq_iff.mp hall

theorem Agree.perm_append {x y x' y' : Except Fault (List γ)} (h : Agree List.Perm x x')
    (h' : Agree List.Perm y y') :
    Agree List.Perm (x >>= fun found ↦ y >>= fun others ↦ .ok (found ++ others))
      (x' >>= fun found ↦ y' >>= fun others ↦ .ok (found ++ others)) :=
  h.bind fun _ _ hfound ↦ h'.bind fun _ _ hothers ↦ .ok (hfound.append hothers)

/-! ## Dropped nodes -/

namespace Dropped

section Entries

variable {kind : NodeKind} {required : List Text} {load : Value → Query (Option α)} {path : Text}
  {inside : Value → Text → Query (List Issue)}

/-- What is found at one entry. -/
def atEntry (kind : NodeKind) (required : List Text) (load : Value → Query (Option α)) (path : Text)
    (inside : Value → Text → Query (List Issue)) (e : Value × Value) :
    Except Fault (List Issue) := do
  let here := Pointer.join path (← e.1.written)
  match ← (load e.2).answer with
  | none => return [⟨.dropped kind e.1 (reason required e.2), here⟩]
  | some _ => (inside e.2 here).answer

theorem answer_inEntries_eq_collect (entries : List (Value × Value)) :
    (inEntries kind required load path inside entries).answer =
      collect (atEntry kind required load path inside) entries := by
  induction entries with
  | nil => rfl
  | cons e rest ih =>
    obtain ⟨name, v⟩ := e
    rw [inEntries, collect, ← ih, atEntry, Query.answer_bind, Query.answer_ofExcept]
    cases name.written with
    | error fault => rfl
    | ok t =>
      simp only [ok_bind, Query.answer_bind]
      cases (load v).answer with
      | error fault => rfl
      | ok found =>
        rw [ok_bind, ok_bind]
        cases found with
        | none =>
          dsimp only
          simp only [Query.answer_bind]
          rfl
        | some item =>
          dsimp only
          simp only [Query.answer_bind]
          rfl

variable {role : Value.Role} {v w : Value}

theorem reason_eq (h : v.Reordered role w) (hv : v.isKeyed = true) :
    reason required w = reason required v := by
  rw [reason, reason, h.isMap, h.missing hv]

theorem agree_inChildren {r : α → α → Prop} (h : v.Reordered role w) (hv : v.isKeyed = true)
    (hload : ∀ key a b, a.Reordered (role.under key) b → a.isKeyed = true →
      Agree (Option.Rel r) (load a).answer (load b).answer)
    (hinside : ∀ key a b path, a.Reordered (role.under key) b → a.isKeyed = true →
      Agree List.Perm (inside a path).answer (inside b path).answer) :
    Agree List.Perm (inChildren kind required load path inside v).answer
      (inChildren kind required load path inside w).answer := by
  cases v with
  | map entries =>
    obtain ⟨entries', rfl, hentries, -⟩ := h.entries
    obtain ⟨hnames, hvalues⟩ := Value.entriesKeyed_iff.mp hv
    rw [inChildren, inChildren, answer_inEntries_eq_collect, answer_inEntries_eq_collect]
    refine agree_collect_perm hentries.mem ?_
    rintro ⟨name, a⟩ ⟨name', b⟩ ⟨hmem, -, hname, hvalue⟩
    cases hname
    have htext : name.isText = true := hnames.isText_of_mem hmem
    have hwritten : name.written = .ok name.plain := by
      rw [Value.written, Value.isWritable_of_isText htext]
      rfl
    have ha := hvalues _ hmem
    rw [atEntry, atEntry, hwritten, ok_bind, ok_bind]
    refine (hload name a b hvalue ha).bind fun found found' hfound ↦ ?_
    cases hfound with
    | none =>
      dsimp only
      rw [reason_eq hvalue ha]
      exact .ok (.refl _)
    | some _ => exact hinside name a b _ hvalue ha
  | _ => cases h <;> exact .ok (.refl _)

theorem agree_leaf (a b : Value) (path : Text) :
    Agree List.Perm (leaf a path).answer (leaf b path).answer := .ok (.refl _)

end Entries

section Nodes

variable {v w : Value}

theorem agree_inEntity (h : v.Reordered .anEntity w) (hv : v.isKeyed = true) (path : Text) :
    Agree List.Perm (inEntity v path).answer (inEntity w path).answer := by
  rw [inEntity, inEntity]
  simp only [Query.answer_bind]
  refine Agree.perm_append ?_ ?_
  · exact agree_inChildren (h.field hv "fieldsLocal") (Value.isKeyed_field hv _)
      (fun _ _ _ ↦ agree_field) fun _ a b path _ _ ↦ agree_leaf a b path
  · exact agree_inChildren (h.field hv "genericMap") (Value.isKeyed_field hv _)
      (fun _ _ _ ↦ agree_field) fun _ a b path _ _ ↦ agree_leaf a b path

theorem agree_inEnumeration {role : Value.Role} (h : v.Reordered role w) (hv : v.isKeyed = true)
    (path : Text) : Agree List.Perm (inEnumeration v path).answer (inEnumeration w path).answer :=
  agree_inChildren (h.field hv "enumMap") (Value.isKeyed_field hv _)
    (fun _ _ _ ↦ agree_enumItem) fun _ a b path _ _ ↦ agree_leaf a b path

theorem agree_inModule (h : v.Reordered .aModule w) (hv : v.isKeyed = true) (path : Text) :
    Agree List.Perm (inModule v path).answer (inModule w path).answer := by
  rw [inModule, inModule]
  simp only [Query.answer_bind]
  refine Agree.perm_append ?_ ?_
  · exact agree_inChildren (h.field hv "entities") (Value.isKeyed_field hv _)
      (fun _ _ _ ↦ agree_entity) fun _ _ _ path hvalue ha ↦ agree_inEntity hvalue ha path
  · exact agree_inChildren (h.field hv "enums") (Value.isKeyed_field hv _)
      (fun _ _ _ ↦ agree_enumeration) fun _ _ _ path hvalue ha ↦ agree_inEnumeration hvalue ha path

end Nodes

end Dropped

/-- The nodes that loading leaves out are the same in every order of a document. -/
theorem agree_droppedIssues {v w : Value} (h : v.Reordered .project w) (hv : v.isKeyed = true) :
    Agree List.Perm (droppedIssues v).answer (droppedIssues w).answer := by
  rw [droppedIssues, droppedIssues, Query.answer_bind, Query.answer_bind]
  refine (agree_project h hv).bind fun found found' hfound ↦ ?_
  cases hfound with
  | none =>
    dsimp only
    rw [Dropped.reason_eq h hv]
    exact .ok (.refl _)
  | some _ =>
    exact Dropped.agree_inChildren (h.field hv "modules") (Value.isKeyed_field hv _)
      (fun _ _ _ ↦ agree_module) fun _ _ _ path hvalue ha ↦ Dropped.agree_inModule hvalue ha path

/-! ## Reference issues -/

/-- The types inside all lists are the same if the types are. -/
theorem FieldType.same_core {t u : FieldType} (h : t.same u = true) :
    t.core.same u.core = true := by
  induction t generalizing u with
  | list member ih =>
    cases u with
    | list member' => exact @ih member' h
    | _ => cases h
  | _ =>
    cases u with
    | list member' => cases h
    | _ => exact h

namespace References

variable {g g' : Graph} {owner : ElementPath} {pointer : Text} {id id' : EntityId}

theorem agree_findEntity (h : g.Reordered g') {path : ElementPath} (hpath : path.IsTextual) :
    Agree (Option.Rel (g.Linked g')) (g.project.findEntity path) (g'.project.findEntity path) :=
  (h.project.alike_findEntity path).agree
    (Project.exists_ok_of_isKey Module.entities hpath.isKey.1 hpath.isKey.2)

theorem agree_findEnumeration (h : g.Reordered g') {path : ElementPath} (hpath : path.IsTextual) :
    Agree (Option.Rel fun a b ↦ a.same b = true) (g.project.findEnumeration path)
      (g'.project.findEnumeration path) :=
  (h.project.alike_findEnumeration path).agree
    (Project.exists_ok_of_isKey Module.enumerations hpath.isKey.1 hpath.isKey.2)

theorem agree_issue {paths : List ElementPath} (h : ∀ path ∈ paths, path.isWritable = true)
    (finding : Finding) :
    Agree List.Perm (issue paths finding pointer) (issue paths finding pointer) := by
  rw [issue_of_isWritable h]
  exact .ok (.refl _)

theorem agree_ofParent (h : g.Reordered g') (howner : owner.isWritable = true)
    {parent : Option ElementPath} (hparent : ∀ path, parent = some path → path.IsTextual) :
    Agree List.Perm (ofParent g.project owner pointer parent)
      (ofParent g'.project owner pointer parent) := by
  cases parent with
  | none => exact .ok (.refl _)
  | some path =>
    have htextual : path.IsTextual := hparent path rfl
    have htold : ∀ q ∈ [path, owner], q.isWritable = true := by
      simp [htextual.isWritable, howner]
    rw [ofParent, ofParent]
    refine (agree_findEntity h htextual).bind fun found found' hfound ↦ ?_
    cases hfound with
    | some _ => exact .ok (.refl _)
    | none =>
      refine (agree_findEnumeration h htextual).bind fun found found' hfound ↦ ?_
      cases hfound with
      | some _ => exact agree_issue htold _
      | none => exact agree_issue htold _

theorem agree_ofResponse (h : g.Reordered g') (howner : owner.isWritable = true)
    {response : Option ElementPath} (hresponse : ∀ path, response = some path → path.IsTextual) :
    Agree List.Perm (ofResponse g.project owner pointer response)
      (ofResponse g'.project owner pointer response) := by
  cases response with
  | none => exact .ok (.refl _)
  | some path =>
    have htextual : path.IsTextual := hresponse path rfl
    have htold : ∀ q ∈ [path, owner], q.isWritable = true := by
      simp [htextual.isWritable, howner]
    rw [ofResponse, ofResponse]
    refine (agree_findEntity h htextual).bind fun found found' hfound ↦ ?_
    cases hfound with
    | some _ => exact .ok (.refl _)
    | none => exact agree_issue htold _

/-- The path in a type leads in both graphs to something or to nothing. -/
theorem agree_ofType (h : g.Reordered g') {t u : FieldType} (hsame : t.same u = true)
    (ht : t.IsTextual) :
    Agree List.Perm (ofType g.project pointer t) (ofType g'.project pointer u) := by
  have hcore := FieldType.same_core hsame
  rw [FieldType.IsTextual] at ht
  rw [ofType, ofType]
  generalize t.core = t at hcore ht ⊢
  generalize u.core = u at hcore ⊢
  cases t with
  | object path =>
    have htextual : path.IsTextual := ht path (Or.inl rfl)
    cases u with
    | object path' =>
      cases ElementPath.eq_of_same htextual hcore
      refine (agree_findEntity h htextual).bind fun found found' hfound ↦ ?_
      cases hfound with
      | some _ => exact .ok (.refl _)
      | none => exact agree_issue (List.forall_mem_singleton.mpr htextual.isWritable) _
    | _ => cases hcore
  | enumeration path =>
    have htextual : path.IsTextual := ht path (Or.inr rfl)
    cases u with
    | enumeration path' =>
      cases ElementPath.eq_of_same htextual hcore
      refine (agree_findEnumeration h htextual).bind fun found found' hfound ↦ ?_
      cases hfound with
      | some _ => exact .ok (.refl _)
      | none => exact agree_issue (List.forall_mem_singleton.mpr htextual.isWritable) _
    | _ => cases hcore
  | _ =>
    cases u with
    | object path' => cases hcore
    | enumeration path' => cases hcore
    | _ => exact .ok (.refl _)

/-- What is found at one field. -/
def atField (p : Project EntityId) (pointer : Text) (f : Value × Field) :
    Except Fault (List Issue) := do
  let here := Pointer.join pointer (← token f.1)
  ofType p here f.2.type

theorem ofFields_eq_collect (p : Project EntityId) (pointer : Text) (fields : Table Field) :
    ofFields p pointer fields = collect (atField p pointer) fields := by
  induction fields with
  | nil => rfl
  | cons f rest ih =>
    obtain ⟨name, f⟩ := f
    rw [ofFields, collect, ← ih, atField]
    cases token name with
    | error fault => rfl
    | ok t => rfl

theorem agree_ofFields (h : g.Reordered g') {fields fields' : Table Field}
    (hfields : Rearranged (Entrywise fun a b ↦ a.same b = true) fields fields')
    (htextual : ∀ f ∈ fields, f.1.isText = true ∧ f.2.type.IsTextual) :
    Agree List.Perm (ofFields g.project pointer fields) (ofFields g'.project pointer fields') := by
  rw [ofFields_eq_collect, ofFields_eq_collect]
  refine agree_collect_perm hfields.mem ?_
  rintro ⟨name, a⟩ ⟨name', b⟩ ⟨hmem, -, hname, hsame⟩
  cases hname
  obtain ⟨htext, htype⟩ := htextual _ hmem
  obtain ⟨t, rfl⟩ := Value.isText_iff.mp htext
  exact agree_ofType h (Field.same_type hsame) htype

/-- What is wrong with the paths of an entity is wrong with those of an entity that is linked. -/
theorem agree_ofPaths (h : g.Reordered g') (hid : g.Linked g' id id') (howner : owner.IsTextual)
    (he : (g.entity id).IsTextual) :
    Agree List.Perm (ofPaths g.project owner (g.entity id))
      (ofPaths g'.project owner (g'.entity id')) := by
  have hparent := ElementPath.eq_of_rel he.parent hid.entity.parent
  have hresponse := ElementPath.eq_of_rel he.response hid.entity.response
  rw [ofPaths, ofPaths, hparent, hresponse, howner.isWritable]
  refine (Agree.ok (r := Eq) rfl).bind fun _ _ _ ↦ ?_
  refine (agree_ofParent h howner.isWritable he.parent).bind fun _ _ hparents ↦ ?_
  refine (agree_ofResponse h howner.isWritable he.response).bind fun _ _ hresponses ↦ ?_
  refine (agree_ofFields h (.of_forall₂ hid.entity.fields) he.fields).bind fun _ _ hfields ↦ ?_
  refine (agree_ofFields h hid.entity.bindings.items he.bindings).bind fun _ _ hbindings ↦ ?_
  exact .ok (((hparents.append hresponses).append hfields).append hbindings)

/-- A walk that fails, fails with the same paths. -/
theorem agree_ofInheritance (h : g.Reordered g') (hparents : g.HasTextualParents)
    (hid : g.Linked g' id id') :
    Agree List.Perm (ofInheritance g owner id).answer (ofInheritance g' owner id').answer := by
  have hmem := Graph.Reordered.mem_identities hid
  obtain ⟨issues, hissues, -⟩ : ∃ issues, (ofInheritance g owner id).answer = .ok issues ∧
      Reports g [⟨owner, id, .lineage⟩] issues :=
    reports_ofInheritance (hasKeyParents_of_hasTextualParents hparents hmem) fun _ hloop ↦
      isWritable_of_isLoop hparents hmem hloop
  have hsame : (ofInheritance g' owner id').answer = (ofInheritance g owner id).answer := by
    rw [answer_ofInheritance, answer_ofInheritance]
    have hwalk := h.alike_ancestors hparents hid
    generalize (g.ancestors (some g.project) id).answer = walk at hwalk ⊢
    generalize (g'.ancestors (some g'.project) id').answer = walk' at hwalk ⊢
    cases walk with
    | ok chain =>
      cases walk' with
      | ok chain' => rfl
      | error fault' => exact hwalk.elim
    | error fault =>
      cases walk' with
      | ok chain' => exact hwalk.elim
      | error fault' => rw [show fault = fault' from hwalk]
  rw [hsame, hissues]
  exact .ok (.refl _)

/-- What is found at one entity. -/
def atEntity (g : Graph) (e : ElementPath × EntityId) : Except Fault (List Issue) := do
  let paths ← ofPaths g.project e.1 (g.entity e.2)
  let inheritance ← (ofInheritance g e.1 e.2).answer
  return paths ++ inheritance

theorem answer_ofEntities_eq_collect (g : Graph) (entries : List (ElementPath × EntityId)) :
    (ofEntities g entries).answer = collect (atEntity g) entries := by
  induction entries with
  | nil => rfl
  | cons e rest ih =>
    obtain ⟨path, id⟩ := e
    rw [ofEntities, collect, ← ih, atEntity]
    simp only [Query.answer_bind, Query.answer_ofExcept]
    cases ofPaths g.project path (g.entity id) with
    | error fault => rfl
    | ok paths =>
      rw [ok_bind, ok_bind]
      cases (ofInheritance g path id).answer with
      | error fault => rfl
      | ok inheritance => rfl

end References

/-- The reference issues of a graph are those of the graph in another order. -/
theorem agree_referenceIssues {g g' : Graph} (h : g.Reordered g') (htextual : g.IsTextual) :
    Agree List.Perm (referenceIssues g).answer (referenceIssues g').answer := by
  rw [referenceIssues, referenceIssues, References.answer_ofEntities_eq_collect,
    References.answer_ofEntities_eq_collect]
  refine agree_collect_perm h.project.flatEntities.mem ?_
  rintro ⟨path, id⟩ ⟨path', id'⟩ ⟨hmem, -, hpath, hid⟩
  cases hpath
  obtain ⟨howner, hidentity⟩ := References.isTextual_of_mem htextual hmem
  exact (References.agree_ofPaths h hid howner (htextual.entities id hidentity)).perm_append
    (References.agree_ofInheritance h htextual.parents hid)

/-! ## Documents -/

section Documents

variable {p : Project Entity}

/-- Every entity of the graph of a project is an entity of the project. -/
theorem exists_mem_flatEntities {id : EntityId} (h : id ∈ (Graph.ofProject p).project.identities) :
    ∃ path, (path, (Graph.ofProject p).entity id) ∈ p.flatEntities := by
  obtain ⟨⟨path, id⟩, hmem, rfl⟩ := List.mem_map.mp h
  exact ⟨path, Graph.mem_flatEntities_of_mem_ofProject hmem⟩

/-- The graph of a project with textual names and entities is textual. -/
theorem isTextual_ofProject (hnames : (Graph.ofProject p).project.HasTextNames)
    (hentities : ∀ e ∈ p.flatEntities, e.2.IsTextual) : (Graph.ofProject p).IsTextual where
  modules := fun m hm ↦ hnames.modules.isText_of_mem hm
  names := fun m hm e he ↦ (hnames.entities m hm).isText_of_mem he
  entities := by
    intro id hid
    obtain ⟨path, hmem⟩ := exists_mem_flatEntities hid
    exact hentities _ hmem

/-- What two documents say alike of their projects: a path leads to entities of which both tell the
same, or to none; they have the same entities and the same enumerations, leave out the same nodes
and have the same reference issues, in some order. -/
structure ReadAlike (d d' : Value) (p p' : Project Entity) : Prop where
  paths : ∀ path, Alike (Option.Rel ((Graph.ofProject p).TellSame (Graph.ofProject p')))
    ((Graph.ofProject p).project.findEntity path) ((Graph.ofProject p').project.findEntity path)
  entities : Rearranged (Entrywise Entity.Reordered) p.flatEntities p'.flatEntities
  enumerations :
    Rearranged (Entrywise fun a b ↦ a.same b = true) p.flatEnumerations p'.flatEnumerations
  dropped : Agree List.Perm (droppedIssues d).answer (droppedIssues d').answer
  references : Agree List.Perm (referenceIssues (Graph.ofProject p)).answer
    (referenceIssues (Graph.ofProject p')).answer

/-- The order of a document does not matter, but for that of the local fields of an entity: in any
other order the document of a project is the document of a project too, and both read alike. -/
theorem readAlike_of_reordered {d d' : Value} (h : d.Reordered .project d')
    (hkeys : d.isKeyed = true) (hload : (Project.load d).answer = .ok (some p))
    (hentities : ∀ e ∈ p.flatEntities, e.2.IsTextual ∧ e.2.HasTextGenerics) :
    ∃ p', (Project.load d').answer = .ok (some p') ∧ ReadAlike d d' p p' := by
  obtain ⟨found, found', hfound, hfound', hrel⟩ := agree_project h hkeys
  rw [hload] at hfound
  cases hfound
  cases hrel with
  | @some _ p' hproject =>
    have hgraph := Graph.reordered_ofProject hproject
    have htextual : (Graph.ofProject p).IsTextual :=
      isTextual_ofProject hgraph.project.hasTextNames fun e he ↦ (hentities e he).1
    have hgenerics : ∀ id ∈ (Graph.ofProject p).project.identities,
        ((Graph.ofProject p).entity id).HasTextGenerics := by
      intro id hid
      obtain ⟨path, hmem⟩ := exists_mem_flatEntities hid
      exact (hentities _ hmem).2
    exact ⟨p', hfound',
      { paths := hgraph.alike_findEntity htextual.parents hgenerics
        entities := hproject.flatEntities
        enumerations := hproject.flatEnumerations
        dropped := agree_droppedIssues h hkeys
        references := agree_referenceIssues hgraph htextual }⟩

end Documents

/-! ## A document in two orders -/

/-- A field that has only what is required. -/
def requiredField (type : FieldType) : Value :=
  .map [(.str "type", type.toDocument), (.str "isOptional", .bool false),
    (.str "isPathParameter", .bool false)]

/-- An entity that introduces two parameters. -/
def baseDocument : Value :=
  .map [(.str "type", .int 0), (.str "isAbstract", .bool true),
    (.str "fieldsLocal", .map [(.str "y", requiredField (.unknown (.str "U"))),
      (.str "x", requiredField (.unknown (.str "T")))]),
    (.str "genericMap", .map [])]

/-- An entity that inherits from it and has some bindings. -/
def heirDocument (bindings : List (Value × Value)) : Value :=
  .map [(.str "type", .int 0), (.str "isAbstract", .bool false),
    (.str "parent", .map [(.str "module", .str "a"), (.str "name", .str "Base")]),
    (.str "fieldsLocal", .map []), (.str "genericMap", .map bindings)]

/-- Two modules, one with the two entities and one with an entity that is dropped. -/
def listedDocument : Value :=
  .map [(.str "name", .str "P"),
    (.str "modules", .map
      [(.str "a", .map [(.str "entities", .map
        [(.str "Base", baseDocument),
          (.str "Heir", heirDocument [(.str "T", requiredField (.primitive .string)),
            (.str "W", requiredField (.object ⟨.str "a", .null⟩))])])]),
        (.str "b", .map [(.str "entities", .map [(.str "Odd", .null)])])])]

/-- The same with the heir first, its bindings the other way round, and modules and keys too. -/
def shuffledDocument : Value :=
  .map [(.str "modules", .map
      [(.str "b", .map [(.str "entities", .map [(.str "Odd", .null)])]),
        (.str "a", .map [(.str "entities", .map
        [(.str "Heir", heirDocument [(.str "W", requiredField (.object ⟨.str "a", .null⟩)),
            (.str "T", requiredField (.primitive .string))]),
          (.str "Base", baseDocument)])])]),
    (.str "name", .str "P")]

/-- The entity that introduces the parameters. -/
def baseEntity : Entity where
  isAbstract := true
  fields :=
    [(.str "y", { type := .unknown (.str "U") }), (.str "x", { type := .unknown (.str "T") })]

/-- The entity that binds one of them, and another that nobody mentions. -/
def heirEntity : Entity where
  parent := some ⟨.str "a", .str "Base"⟩
  bindings := [(.str "T", { type := .primitive .string }),
    (.str "W", { type := .object ⟨.str "a", .null⟩ })]

/-- The project of the first document. -/
def listedProject : Project Entity where
  name := .str "P"
  modules :=
    [(.str "a", { entities := [(.str "Base", baseEntity), (.str "Heir", heirEntity)] }),
      (.str "b", {})]

/-- Two entries the other way round. -/
theorem Value.Reordered.swap {role : Role} {key key' a b a' b' : Value} (hrole : role ≠ .fields)
    (ha : a.Reordered (role.under key) a') (hb : b.Reordered (role.under key') b') :
    (Value.map [(key, a), (key', b)]).Reordered role (.map [(key', b'), (key, a')]) :=
  .map (.cons ha (.cons hb .nil)) (.swap _ _ _) fun h ↦ absurd h hrole

theorem reordered_heirDocument (e f : Value × Value) :
    (heirDocument [e, f]).Reordered .anEntity (heirDocument [f, e]) := by
  have hbindings : (Value.map [e, f]).Reordered .other (.map [f, e]) :=
    .swap (by decide) (.refl _ _) (.refl _ _)
  refine .map ?_ (.refl _) fun _ ↦ rfl
  exact .cons (.refl _ _) (.cons (.refl _ _) (.cons (.refl _ _) (.cons (.refl _ _)
    (.cons hbindings .nil))))

theorem reordered_listedDocument : listedDocument.Reordered .project shuffledDocument := by
  refine .swap (by decide) (.refl _ _) (.swap (by decide) ?_ (.refl _ _))
  -- The module of the two entities keeps its only entry, and that turns them round.
  refine .map (.cons ?_ .nil) (.refl _) fun _ ↦ rfl
  exact .swap (by decide) (.refl _ _) (reordered_heirDocument _ _)

theorem readAlike_shuffledDocument :
    listedDocument.Reordered .project shuffledDocument ∧ listedDocument.isKeyed = true ∧
      (Project.load listedDocument).answer = .ok (some listedProject) ∧
      (∀ e ∈ listedProject.flatEntities, e.2.IsTextual ∧ e.2.HasTextGenerics) ∧
      ∃ p', (Project.load shuffledDocument).answer = .ok (some p') ∧
        ReadAlike listedDocument shuffledDocument listedProject p' := by
  have hkeys : listedDocument.isKeyed = true := by decide
  have hload : (Project.load listedDocument).answer = .ok (some listedProject) := rfl
  have hbase : baseEntity.IsTextual ∧ baseEntity.HasTextGenerics := by
    refine ⟨⟨?_, ?_, ?_, ?_⟩, ?_⟩ <;>
      simp [baseEntity, FieldType.IsTextual, FieldType.core, Value.isText, Entity.HasTextGenerics,
        Entity.localGenerics]
  have hheir : heirEntity.IsTextual ∧ heirEntity.HasTextGenerics := by
    refine ⟨⟨?_, ?_, ?_, ?_⟩, ?_⟩ <;>
      simp [heirEntity, ElementPath.IsTextual, FieldType.IsTextual, FieldType.core, Value.isText,
        Entity.HasTextGenerics, Entity.localGenerics]
  have hentities : ∀ e ∈ listedProject.flatEntities, e.2.IsTextual ∧ e.2.HasTextGenerics :=
    List.forall_mem_cons.mpr ⟨hbase, List.forall_mem_singleton.mpr hheir⟩
  exact ⟨reordered_listedDocument, hkeys, hload, hentities,
    readAlike_of_reordered reordered_listedDocument hkeys hload hentities⟩

end EntityGraph
