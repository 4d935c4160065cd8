import EntityGraph.Proofs.Check.Dropped
import EntityGraph.Proofs.Check.References
import EntityGraph.Proofs.Graph.Numbering
import EntityGraph.Proofs.Model.Reading
import EntityGraph.Proofs.Schema.Parts

/-!
# References of valid documents

The paths in a valid document are made of texts, so every path of its project can be followed and
told. The names in it may be any keys. Modules and entities are pointed to by the text of their
name, but fields and bindings by the name itself, which has to be one. So the reference check of a
valid document ends in one of two ways: with its issues, or at the first name of a field or of a
binding that is not a text.
-/

namespace EntityGraph

open Schema
open Dropped (entriesOf)

/-! ## Ending at a name -/

/-- The first of some names that is not a text. -/
def firstUntextual (names : List Value) : Option Value := names.find? fun name ↦ !name.isText

/-- A computation answers if there is no name to end at, and otherwise ends at the name. -/
def EndsAt {α : Type} (name : Option Value) (x : Except Fault α) : Prop :=
  match name with
  | none => ∃ a, x = .ok a
  | some name => x = .error (.notAText name.kind)

theorem EndsAt.bind {α β : Type} {name later : Option Value} {x : Except Fault α}
    {f : α → Except Fault β} (h : EndsAt name x) (hf : ∀ a, EndsAt later (f a)) :
    EndsAt (name.or later) (x >>= f) := by
  cases name with
  | none =>
    obtain ⟨a, rfl⟩ := h
    exact hf a
  | some name =>
    have hx : x = .error (.notAText name.kind) := h
    rw [hx]
    rfl

/-- What always answers does not change where a computation ends. -/
theorem EndsAt.bind_left {α β : Type} {name : Option Value} {x : Except Fault α}
    {f : α → Except Fault β} (h : EndsAt name x) (hf : ∀ a, ∃ b, f a = .ok b) :
    EndsAt name (x >>= f) := by
  rw [← Option.or_none (o := name)]
  exact h.bind hf

theorem EndsAt.bind_right {α β : Type} {name : Option Value} {x : Except Fault α}
    {f : α → Except Fault β} (hx : ∃ a, x = .ok a) (hf : ∀ a, EndsAt name (f a)) :
    EndsAt name (x >>= f) :=
  EndsAt.bind (show EndsAt none x from hx) hf

theorem firstUntextual_append (names others : List Value) :
    firstUntextual (names ++ others) = (firstUntextual names).or (firstUntextual others) :=
  List.find?_append

/-! ## The reference check -/

/-- The paths of an entity are textual, whatever its fields are called. -/
structure Entity.HasTextualPaths (e : Entity) : Prop where
  parent : ∀ path, e.parent = some path → path.IsTextual
  response : ∀ path, e.response = some path → path.IsTextual
  types : ∀ f ∈ e.fields ++ e.bindings, f.2.type.IsTextual

/-- The names of the fields and of the bindings of an entity. -/
def Entity.memberNames (e : Entity) : List Value := (e.fields ++ e.bindings).map (·.1)

/-- The names of all fields and bindings, entity by entity in document order. -/
def Project.memberNames (p : Project Entity) : List Value :=
  p.flatEntities.flatMap fun e ↦ e.2.memberNames

namespace References

section Entity

variable {g : Graph} {owner : ElementPath} {id : EntityId}

theorem endsAt_token (name : Value) : EndsAt (firstUntextual [name]) (token name) := by
  cases name with
  | str t => exact ⟨t, rfl⟩
  | _ => rfl

/-- A type whose path is textual can be looked into, wherever it stands. -/
theorem exists_ofType (id : EntityId) (table : String) (token : Text) {t : FieldType}
    (h : t.IsTextual) : ∃ issues, ofType g.project
      (Pointer.join (Pointer.join (entityPointer owner) table) token) t = .ok issues := by
  obtain ⟨issues, hissues, -⟩ := @reports_ofType g owner id table (.str token) t h
  exact ⟨issues, hissues⟩

/-- The check of a table of fields ends at the first name that is not a text. -/
theorem endsAt_ofFields (id : EntityId) {table : String} {fields : Table Field}
    (h : ∀ f ∈ fields, f.2.type.IsTextual) :
    EndsAt (firstUntextual (fields.map (·.1)))
      (ofFields g.project (Pointer.join (entityPointer owner) table) fields) := by
  induction fields with
  | nil => exact ⟨[], rfl⟩
  | cons f fields ih =>
    obtain ⟨name, f⟩ := f
    obtain ⟨htype, hrest⟩ := List.forall_mem_cons.mp h
    have hlater := ih hrest
    rw [ofFields, List.map_cons, ← List.singleton_append, firstUntextual_append]
    refine (endsAt_token name).bind fun token ↦ ?_
    refine .bind_right (exists_ofType id table token htype) fun found ↦ ?_
    exact hlater.bind_left fun later ↦ ⟨found ++ later, rfl⟩

/-- The check of the paths of an entity ends at the first of its names that is not a text. -/
theorem endsAt_ofPaths (id : EntityId) {e : Entity} (howner : owner.isWritable = true)
    (h : e.HasTextualPaths) :
    EndsAt (firstUntextual e.memberNames) (ofPaths g.project owner e) := by
  obtain ⟨hfields, hbindings⟩ := List.forall_mem_append.mp h.types
  obtain ⟨parent, hparent, -⟩ := @reports_ofParent g owner id _ howner h.parent
  obtain ⟨response, hresponse, -⟩ := @reports_ofResponse g owner id _ howner h.response
  have hwritable : ∃ u, Fault.requireWritable owner.isWritable = .ok u := by
    rw [howner]
    exact ⟨(), rfl⟩
  rw [ofPaths, Entity.memberNames, List.map_append, firstUntextual_append]
  refine .bind_right hwritable fun _ ↦ .bind_right ⟨_, hparent⟩ fun _ ↦ ?_
  refine .bind_right ⟨_, hresponse⟩ fun _ ↦ ?_
  refine (endsAt_ofFields id hfields).bind fun _ ↦ ?_
  exact (endsAt_ofFields id hbindings).bind_left fun _ ↦ ⟨_, rfl⟩

end Entity

/-- The check of some entities of a graph ends at the first of their names that is not a text. -/
theorem endsAt_ofEntities {g : Graph} (hparents : g.HasTextualParents)
    {entries : List (ElementPath × EntityId)}
    (hentries : ∀ entry ∈ entries, entry ∈ g.project.flatEntities)
    (h : ∀ entry ∈ entries, entry.1.isWritable = true ∧ (g.entity entry.2).HasTextualPaths) :
    EndsAt (firstUntextual (entries.flatMap fun e ↦ (g.entity e.2).memberNames))
      (ofEntities g entries).answer := by
  induction entries with
  | nil => exact ⟨[], rfl⟩
  | cons entry entries ih =>
    obtain ⟨owner, id⟩ := entry
    obtain ⟨hentry, hentriesRest⟩ := List.forall_mem_cons.mp hentries
    obtain ⟨⟨howner, hpaths⟩, hrest⟩ := List.forall_mem_cons.mp h
    have hlater := ih hentriesRest hrest
    have hid : id ∈ g.project.identities := List.mem_map_of_mem hentry
    -- A walk that comes back is an issue and no fault, so only the paths can end the check.
    obtain ⟨inheritance, hinheritance, -⟩ := @reports_ofInheritance g owner id
      (hasKeyParents_of_hasTextualParents hparents hid)
      fun _ hloop ↦ isWritable_of_isLoop hparents hid hloop
    rw [ofEntities, Query.answer_bind, Query.answer_ofExcept, List.flatMap_cons,
      firstUntextual_append]
    refine (endsAt_ofPaths id howner hpaths).bind fun paths ↦ ?_
    rw [Query.answer_bind]
    refine .bind_right ⟨_, hinheritance⟩ fun found ↦ ?_
    rw [Query.answer_bind]
    exact hlater.bind_left fun later ↦ ⟨_, rfl⟩

end References

/-! ## Textual paths of valid documents -/

theorem isTextual_of_elementPath {v : Value} {path : ElementPath}
    (hvalid : v = .null ∨ IsValid "elementPath" v) (h : ElementPath.load v = some path) :
    path.IsTextual := by
  rcases hvalid with rfl | hvalid
  · cases h
  · obtain ⟨hmap, hmodule, hname⟩ := hvalid.coordinates
    rw [ElementPath.load, if_pos hmap] at h
    cases h
    exact ⟨hmodule, hname⟩

/-- The path in a valid type is textual, at any depth of lists. -/
theorem isTextual_of_fieldType {v : Value} {t : FieldType} (h : t.IsReadFrom v) : t.IsTextual := by
  induction h with
  | object _ hvalid hload =>
    have htextual := isTextual_of_elementPath (Or.inr hvalid) hload
    intro path hpath
    simp only [FieldType.core, FieldType.object.injEq, reduceCtorEq, or_false] at hpath
    exact hpath ▸ htextual
  | enumeration _ hvalid hload =>
    have htextual := isTextual_of_elementPath (Or.inr hvalid) hload
    intro path hpath
    simp only [FieldType.core, FieldType.enumeration.injEq, reduceCtorEq, false_or] at hpath
    exact hpath ▸ htextual
  | list _ _ ih => exact ih
  | primitive | unknown => simp [FieldType.IsTextual, FieldType.core]

section Tables

variable {α : Type} {kind : NodeKind} {name : String} {load : Value → Query (Option α)} {v : Value}
  {t : Table α}

/-- What was loaded from a valid table was loaded from a valid entry of the same name. -/
theorem exists_valid_entry_of_mem (hvalid : IsTableOf name v)
    (h : (loadChildren kind load v).answer = .ok t) :
    ∀ item ∈ t, ∃ e ∈ entriesOf v, e.1 = item.1 ∧ IsValid name e.2 ∧
      (load e.2).answer = .ok (some item.2) := by
  obtain ⟨entries, rfl, hentries⟩ := hvalid
  intro item hitem
  obtain ⟨e, he, hname, hload⟩ := exists_entry_of_mem_loadEntries h item hitem
  exact ⟨e, he, hname, hentries e he, hload⟩

end Tables

theorem hasTextualPaths_of_isValid {v : Value} {e : Entity} (hvalid : IsValid "entity" v)
    (h : (Entity.load v).answer = .ok (some e)) : e.HasTextualPaths := by
  have hread := Entity.isReadFrom_of_load h
  obtain ⟨-, -, -, -, hfields, hbindings⟩ := hvalid.entity
  have htypes {kind : NodeKind} {key : Text} {t : Table Field}
      (hv : IsTableOf "field" (v.field key))
      (h : (loadChildren kind Field.load (v.field key)).answer = .ok t) :
      ∀ f ∈ t, f.2.type.IsTextual := by
    intro f hf
    obtain ⟨entry, -, -, hentry, hload⟩ := exists_valid_entry_of_mem hv h f hf
    exact isTextual_of_fieldType (isReadFrom_of_isValid_fieldType hentry.field.2.1
      (Field.isReadFrom_of_load hload).type)
  constructor
  · intro path hpath
    exact isTextual_of_elementPath hvalid.paths.1 (hread.parent.symm.trans hpath)
  · intro path hpath
    exact isTextual_of_elementPath hvalid.paths.2 (hread.response.symm.trans hpath)
  · rw [List.forall_mem_append]
    exact ⟨htypes hfields hread.fields, htypes hbindings hread.bindings⟩

/-- The entities of a valid document have names with texts, and textual paths. -/
theorem hasTextualPaths_of_mem_flatEntities {document : Value} {p : Project Entity}
    (hvalid : violations projectSchema document = []) (hkeys : document.keysWritable = true)
    (h : (Project.load document).answer = .ok (some p)) :
    ∀ entry ∈ p.flatEntities, entry.1.isWritable = true ∧ entry.2.HasTextualPaths := by
  obtain ⟨-, hmodules⟩ := modules_of_violations_eq_nil hvalid
  intro entry hentry
  -- From the project back to the document: the module, then the entity in its valid table.
  obtain ⟨m, hm, hmem⟩ := List.mem_flatMap.mp hentry
  obtain ⟨e, he, rfl⟩ := List.mem_map.mp hmem
  obtain ⟨w, hw, hmoduleName, hmodule, hmoduleLoad⟩ :=
    exists_valid_entry_of_mem hmodules (Project.isReadFrom_of_load h).modules m hm
  obtain ⟨-, hentities, -⟩ := hmodule.moduleNode
  obtain ⟨u, hu, hname, hentity, hload⟩ :=
    exists_valid_entry_of_mem hentities (Module.isReadFrom_of_load hmoduleLoad).entities e he
  have hwKeys := writable_of_mem_entriesOf (Value.keysWritable_field hkeys _) hw
  have huKeys := writable_of_mem_entriesOf (Value.keysWritable_field hwKeys.2 _) hu
  refine ⟨?_, hasTextualPaths_of_isValid hentity hload⟩
  rw [ElementPath.isWritable, ← hmoduleName, ← hname, hwKeys.1, huKeys.1]
  rfl

end EntityGraph
