import EntityGraph.Check.Dropped
import EntityGraph.Check.References
import EntityGraph.Check.Structure
import EntityGraph.Proofs.Model.Loading
import Mathlib.Data.List.Basic

/-!
# Dropped nodes of valid documents

The schema and the loaders describe the same documents, with one difference. The schema compares
the kind and the method of an entity by their value, so that `1.0` is as good as `1`; a loader takes
whole numbers only. What is left out of a valid document is therefore known beforehand: the entities
with such a number, and nothing else. The one other outcome is that of a key without a text, of
which no pointer can be made.
-/

namespace EntityGraph

open Schema

/-! ## What is reported below a table -/

namespace Dropped

/-- What is reported of an entry and below it, given which values load and what is reported below
those. -/
def reported (kind : NodeKind) (required : List Text) (loads : Value → Bool) (path : Text)
    (below : Value → Text → List Issue) (e : Value × Value) : List Issue :=
  let here := Pointer.join path e.1.plain
  if loads e.2 then below e.2 here else [⟨.dropped kind e.1 (reason required e.2), here⟩]

section

variable {α : Type} {condition : Prop} {kind : NodeKind} {required : List Text} {path : Text}
  {load : Value → Query (Option α)} {inside : Value → Text → Query (List Issue)}
  {loads : Value → Bool} {below : Value → Text → List Issue}

theorem settles_inEntries {entries : List (Value × Value)}
    (hkeys : ∀ e ∈ entries, condition → e.1.isWritable = true)
    (hload : ∀ e ∈ entries, Settles condition (fun found ↦ found.isSome = loads e.2)
      (load e.2).answer)
    (hinside : ∀ e ∈ entries, loads e.2 = true → ∀ here,
      Settles condition (fun issues ↦ issues = below e.2 here) (inside e.2 here).answer) :
    Settles condition
      (fun issues ↦ issues = entries.flatMap (reported kind required loads path below))
      (inEntries kind required load path inside entries).answer := by
  induction entries with
  | nil => exact rfl
  | cons e entries ih =>
    have hrest := ih (fun e' he' ↦ hkeys e' (List.mem_cons_of_mem _ he'))
      (fun e' he' ↦ hload e' (List.mem_cons_of_mem _ he'))
      (fun e' he' ↦ hinside e' (List.mem_cons_of_mem _ he'))
    obtain ⟨name, v⟩ := e
    rw [inEntries, Query.answer_bind, Query.answer_ofExcept]
    -- The name is written before the entry is loaded, whether or not anything is reported of it.
    refine (Settles.written (hkeys _ List.mem_cons_self)).bind fun token htoken ↦ ?_
    rw [Query.answer_bind]
    refine (hload _ List.mem_cons_self).bind fun found hfound ↦ ?_
    rw [htoken, List.flatMap_cons]
    cases found with
    | none =>
      have hdropped : loads v = false := hfound.symm
      have hhere : reported kind required loads path below (name, v) =
          [⟨.dropped kind name (reason required v), Pointer.join path name.plain⟩] := by
        rw [reported, hdropped, if_neg Bool.false_ne_true]
      simp only [Query.answer_bind, Query.answer_pure, ok_bind]
      refine hrest.bind fun others hothers ↦ ?_
      rw [hhere, hothers]
      exact rfl
    | some item =>
      have hloads : loads v = true := hfound.symm
      simp only [Query.answer_bind]
      refine (hinside _ List.mem_cons_self hloads _).bind fun below' hbelow ↦ ?_
      refine hrest.bind fun others hothers ↦ ?_
      rw [reported, if_pos hloads, hbelow, hothers]
      exact rfl

/-- What is reported of the children in a valid table. -/
theorem settles_inChildren {name : String} {v : Value} (hv : IsTableOf name v)
    (hkeys : condition → v.keysWritable = true)
    (hload : ∀ w, IsValid name w → (condition → w.keysWritable = true) →
      Settles condition (fun found ↦ found.isSome = loads w) (load w).answer)
    (hinside : ∀ w, IsValid name w → (condition → w.keysWritable = true) → loads w = true →
      ∀ here, Settles condition (fun issues ↦ issues = below w here) (inside w here).answer) :
    Settles condition
      (fun issues ↦ issues = (entriesOf v).flatMap (reported kind required loads path below))
      (inChildren kind required load path inside v).answer := by
  obtain ⟨entries, rfl, hvalid⟩ := hv
  have hentry (e) (he : e ∈ entries) (hc : condition) :
      e.1.isWritable = true ∧ e.2.keysWritable = true :=
    Value.entryKeysWritable_iff.mp (hkeys hc) e he
  exact settles_inEntries (fun e he hc ↦ (hentry e he hc).1)
    (fun e he ↦ hload _ (hvalid e he) fun hc ↦ (hentry e he hc).2)
    fun e he ↦ hinside _ (hvalid e he) fun hc ↦ (hentry e he hc).2

/-- Nothing is reported of a valid table if all that is valid loads, with nothing left out below. -/
theorem settles_inChildren_nil {name : String} {v : Value} (hv : IsTableOf name v)
    (hkeys : condition → v.keysWritable = true)
    (hload : ∀ w, IsValid name w → (condition → w.keysWritable = true) →
      Settles condition (fun found ↦ found.isSome = true) (load w).answer)
    (hinside : ∀ w, IsValid name w → (condition → w.keysWritable = true) →
      ∀ here, Settles condition (fun issues ↦ issues = []) (inside w here).answer) :
    Settles condition (fun issues ↦ issues = [])
      (inChildren kind required load path inside v).answer := by
  refine (settles_inChildren hv hkeys hload fun w hw hk _ ↦ hinside w hw hk).mono
    fun issues hissues ↦ ?_
  rw [hissues, List.flatMap_eq_nil_iff]
  intro e he
  rw [reported, if_pos rfl]

end

/-! ## Nodes -/

section

variable {condition : Prop} {v : Value} (path : Text)

/-- Nothing is left out below a valid field, nor below a valid item. -/
theorem settles_leaf : Settles condition (fun issues ↦ issues = []) (leaf v path).answer := rfl

theorem settles_inFields {kind : NodeKind} (h : IsTableOf "field" v)
    (hkeys : condition → v.keysWritable = true) :
    Settles condition (fun issues ↦ issues = [])
      (inChildren kind Field.requiredKeys Field.load path leaf v).answer :=
  settles_inChildren_nil h hkeys (fun _ hw hk ↦ settles_field hw hk)
    fun _ _ _ here ↦ settles_leaf here

theorem settles_inEntity (h : IsValid "entity" v) (hkeys : condition → v.keysWritable = true) :
    Settles condition (fun issues ↦ issues = []) (inEntity v path).answer := by
  obtain ⟨-, -, -, -, hfields, hbindings⟩ := h.entity
  have hfield (key : Text) : condition → (v.field key).keysWritable = true :=
    fun hc ↦ Value.keysWritable_field (hkeys hc) key
  rw [inEntity, Query.answer_bind]
  refine (settles_inFields _ hfields (hfield _)).bind fun found hfound ↦ ?_
  rw [Query.answer_bind]
  refine (settles_inFields _ hbindings (hfield _)).bind fun others hothers ↦ ?_
  rw [hfound, hothers]
  exact rfl

theorem settles_inEnumeration (h : IsValid "enum" v) (hkeys : condition → v.keysWritable = true) :
    Settles condition (fun issues ↦ issues = []) (inEnumeration v path).answer :=
  settles_inChildren_nil h.enumeration.2 (fun hc ↦ Value.keysWritable_field (hkeys hc) _)
    (fun _ hw hk ↦ settles_enumItem hw hk) fun _ _ _ here ↦ settles_leaf here

/-- The issues of the entities in a table whose kind or method is written with a point. -/
def unsupportedIn (entities : Value) (path : Text) : List Issue :=
  ((entriesOf entities).filter fun e ↦ isFloatWired e.2).map fun e ↦
    ⟨.dropped .entity e.1 .unsupported, Pointer.join path e.1.plain⟩

/-- A valid entity that does not load has all its keys, and so its value is to blame. -/
theorem reason_of_isValid_entity (h : IsValid "entity" v) :
    reason Entity.requiredKeys v = .unsupported := by
  rw [reason, if_pos h.entity.1, missing_eq_nil_of_isValid_entity h]

theorem flatMap_reported_entities (h : IsTableOf "entity" v) :
    (entriesOf v).flatMap (reported .entity Entity.requiredKeys (fun w ↦ !isFloatWired w) path
      fun _ _ ↦ []) = unsupportedIn v path := by
  obtain ⟨entries, rfl, hvalid⟩ := h
  rw [unsupportedIn, entriesOf]
  induction entries with
  | nil => rfl
  | cons e entries ih =>
    have hrest := ih fun e' he' ↦ hvalid e' (List.mem_cons_of_mem _ he')
    have hreason := reason_of_isValid_entity (hvalid e List.mem_cons_self)
    rw [List.flatMap_cons, hrest, List.filter_cons]
    by_cases hfloat : isFloatWired e.2 = true
    · rw [reported, hfloat, hreason]
      rfl
    · rw [Bool.not_eq_true] at hfloat
      rw [reported, hfloat]
      rfl

theorem settles_inModule (h : IsValid "module" v) (hkeys : condition → v.keysWritable = true) :
    Settles condition
      (fun issues ↦ issues = unsupportedIn (v.field "entities") (Pointer.join path "entities"))
      (inModule v path).answer := by
  obtain ⟨-, hentities, henums⟩ := h.moduleNode
  have hfield (key : Text) : condition → (v.field key).keysWritable = true :=
    fun hc ↦ Value.keysWritable_field (hkeys hc) key
  have henumerations : Settles condition (fun issues ↦ issues = [])
      (inChildren .enumeration Enumeration.requiredKeys Enumeration.load
        (Pointer.join path "enums") inEnumeration (v.field "enums")).answer := by
    rcases henums with hnull | htable
    · rw [hnull]
      exact rfl
    · exact settles_inChildren_nil htable (hfield _) (fun w hw hk ↦ settles_enumeration hw hk)
        fun w hw hk here ↦ settles_inEnumeration here hw hk
  rw [inModule, Query.answer_bind]
  refine (settles_inChildren hentities (hfield _) (fun w hw hk ↦ settles_entity hw hk)
    fun w hw hk _ here ↦ settles_inEntity here hw hk).bind fun entities hissues ↦ ?_
  rw [Query.answer_bind]
  refine henumerations.bind fun others hothers ↦ ?_
  rw [hissues, hothers, flatMap_reported_entities _ hentities, List.append_nil]
  exact rfl

end

/-! ## Documents -/

/-- The paths of the entities whose kind or method is written with a point, in document order. -/
def floatWired (document : Value) : List ElementPath :=
  (entriesOf (document.field "modules")).flatMap fun m ↦
    ((entriesOf (m.2.field "entities")).filter fun e ↦ isFloatWired e.2).map fun e ↦ ⟨m.1, e.1⟩

/-- No entity of a module is written with a point if none of the document is. -/
theorem isFloatWired_eq_false_of_floatWired_eq_nil {document : Value}
    (h : floatWired document = []) {m : Value × Value}
    (hm : m ∈ entriesOf (document.field "modules")) :
    ∀ e ∈ entriesOf (m.2.field "entities"), isFloatWired e.2 = false := by
  intro e he
  rw [floatWired, List.flatMap_eq_nil_iff] at h
  have hmodule := h m hm
  rw [List.map_eq_nil_iff, List.filter_eq_nil_iff] at hmodule
  exact Bool.eq_false_iff.mpr (hmodule e he)

/-- The issue of an entity that has all its keys and does not load. -/
def unsupportedEntity (path : ElementPath) : Issue :=
  ⟨.dropped .entity path.name .unsupported, References.entityPointer path⟩

theorem map_unsupportedEntity_floatWired (document : Value) :
    (floatWired document).map unsupportedEntity =
      (entriesOf (document.field "modules")).flatMap fun m ↦
        unsupportedIn (m.2.field "entities")
          (Pointer.join (Pointer.join "/modules" m.1.plain) "entities") := by
  rw [floatWired, List.map_flatMap]
  refine List.flatMap_congr fun m _ ↦ ?_
  rw [unsupportedIn, List.map_map]
  rfl

end Dropped

/-- A document without issues is a mapping without violations. -/
theorem violations_eq_nil_of_structureIssues_eq_nil {schema document : Value}
    (h : structureIssues schema document = .ok []) : violations schema document = [] := by
  by_cases hmap : document.isMap = true
  · refine List.eq_nil_iff_forall_not_mem.mpr fun x hx ↦ ?_
    have hissue := (mem_iff_of_structureIssues hmap h x.issue).mpr ⟨x, hx, rfl⟩
    exact List.not_mem_nil hissue
  · rw [structureIssues, if_neg hmap] at h
    cases h

/-- And a mapping without violations has no issues. -/
theorem structureIssues_of_violations_eq_nil {schema document : Value}
    (hmap : document.isMap = true) (h : violations schema document = []) :
    structureIssues schema document = .ok [] := by
  rw [structureIssues, if_pos hmap, h]
  simp [faultOf?]

open Dropped in
/-- What is reported of a valid document: its entities that are written with a point. -/
theorem settles_droppedIssues {document : Value} (h : violations projectSchema document = []) :
    Settles (document.keysWritable = true)
      (fun issues ↦ issues = (floatWired document).map unsupportedEntity)
      (droppedIssues document).answer := by
  obtain ⟨-, hmodules⟩ := modules_of_violations_eq_nil h
  rw [droppedIssues, Query.answer_bind]
  -- There is a project, and all of its modules load; what is left is what they report.
  refine (settles_project h id).bind fun project hproject ↦ ?_
  obtain ⟨p, rfl⟩ := Option.isSome_iff_exists.mp hproject
  rw [map_unsupportedEntity_floatWired]
  refine (settles_inChildren hmodules (fun hc ↦ Value.keysWritable_field hc _)
    (fun w hw hk ↦ settles_module hw hk)
    fun w hw hk _ here ↦ settles_inModule here hw hk).mono fun issues hissues ↦ ?_
  rw [hissues]
  rfl

open Dropped in
/-- Of a document without violations, exactly the entities with a kind or a method that is written
with a point are left out, each with an issue of its own. The only other outcome is the fault of a
key without a text. -/
theorem droppedIssues_of_structureIssues_eq_nil {document : Value}
    (h : structureIssues projectSchema document = .ok []) :
    (droppedIssues document).answer = .ok ((floatWired document).map unsupportedEntity) ∨
      (droppedIssues document).answer = .error .numberTooLong ∧
        document.keysWritable = false := by
  have hsettles := settles_droppedIssues (violations_eq_nil_of_structureIssues_eq_nil h)
  cases hanswer : (droppedIssues document).answer with
  | ok issues =>
    rw [hanswer] at hsettles
    exact Or.inl (congrArg Except.ok hsettles)
  | error fault =>
    rw [hanswer] at hsettles
    exact Or.inr ⟨congrArg Except.error hsettles.1, Bool.eq_false_iff.mpr hsettles.2⟩

/-! ## Two documents without violations -/

namespace Dropped

/-- A document is valid if it holds valid modules and nothing else. -/
theorem structureIssues_of_isTableOf {modules : Value} (h : IsTableOf "module" modules) :
    structureIssues projectSchema (mapping [("modules", modules)]) = .ok [] := by
  have hviolations : violations projectSchema (mapping [("modules", modules)]) = [] := by
    refine violations_projectSchema_eq_nil_iff.mpr ⟨_, rfl, ?_, ?_⟩
    · simp [Value.lookup]
    · simpa [documentProperties, Value.lookup] using accepts_table_iff.mpr h
  exact structureIssues_of_violations_eq_nil rfl hviolations

/-- A module is valid if it holds valid entities and nothing else. -/
theorem isValid_module_of_isTableOf {entities : Value} (h : IsTableOf "entity" entities) :
    IsValid "module" (mapping [("entities", entities)]) := by
  refine (isValid_node_iff moduleDefinition (by simp [nodeDefinitions])).mpr ⟨_, rfl, ?_, ?_⟩
  · simp [moduleDefinition, Value.lookup]
  · simpa [moduleDefinition, Value.lookup] using accepts_table_iff.mpr h

/-- An entity of the second kind, which is written `1.0`. -/
def floatWiredEntity : Value :=
  mapping [("type", .float (Binary64.ofInt 1)), ("isAbstract", .bool false),
    ("fieldsLocal", mapping []), ("genericMap", mapping [])]

/-- A document with this entity alone, under a key. -/
def floatWiredUnder (k : Value) : Value :=
  mapping [("modules", mapping [("m", mapping [("entities", .map [(k, floatWiredEntity)])])])]

/-- A document with this entity alone. -/
def floatWiredDocument : Value := floatWiredUnder (.str "A")

/-- A document with a module that is named by a whole number. -/
def numberedDocument (n : Int) : Value :=
  mapping [("modules", .map [(.int n, mapping [("entities", mapping [])])])]

theorem isValid_floatWiredEntity : IsValid "entity" floatWiredEntity := by
  have hkind : Accepts projectReferences projectReferences.length
      (ofValue (mapping [("enum", .seq (wholeNumbers 3))])) (.float (Binary64.ofInt 1)) := by
    refine accepts_enum_iff.mpr ⟨.int 1, ?_, by decide +kernel⟩
    exact List.mem_map.mpr ⟨1, by decide, rfl⟩
  have hflag : Accepts projectReferences projectReferences.length (ofValue (ofType "boolean"))
      (.bool false) := accepts_boolean false
  have hfields : Accepts projectReferences projectReferences.length (ofValue (tableOf "field"))
      (mapping []) :=
    accepts_table_iff.mpr ⟨[], rfl, fun e he ↦ absurd he List.not_mem_nil⟩
  refine (isValid_node_iff entityDefinition (by simp [nodeDefinitions])).mpr ⟨_, rfl, ?_, ?_⟩
  · simp [entityDefinition, Value.lookup]
  · simpa [entityDefinition, remarkProperties, Value.lookup] using ⟨hkind, hflag, hfields⟩

theorem structureIssues_floatWiredUnder (k : Value) :
    structureIssues projectSchema (floatWiredUnder k) = .ok [] := by
  have hentities : IsTableOf "entity" (.map [(k, floatWiredEntity)]) :=
    ⟨_, rfl, by simpa using isValid_floatWiredEntity⟩
  refine structureIssues_of_isTableOf ⟨_, rfl, ?_⟩
  simpa using isValid_module_of_isTableOf hentities

theorem structureIssues_floatWiredDocument :
    structureIssues projectSchema floatWiredDocument = .ok [] := structureIssues_floatWiredUnder _

theorem structureIssues_numberedDocument (n : Int) :
    structureIssues projectSchema (numberedDocument n) = .ok [] := by
  have hentities : IsTableOf "entity" (mapping []) :=
    ⟨_, rfl, fun e he ↦ absurd he List.not_mem_nil⟩
  refine structureIssues_of_isTableOf ⟨_, rfl, ?_⟩
  simpa using isValid_module_of_isTableOf hentities

/-- Such a document describes a project with one module, whatever the number. -/
theorem exists_load_numberedDocument (n : Int) :
    ∃ p, (Project.load (numberedDocument n)).answer = .ok (some p) ∧
      p.modules = [(.int n, {})] := by
  have hmodules : (numberedDocument n).field "modules" =
      .map [(.int n, mapping [("entities", mapping [])])] := by
    simp [numberedDocument, mapping, Value.field, Value.lookup]
  have hmissing : (numberedDocument n).missing Project.requiredKeys = [] := by
    simp [Value.missing_eq_nil_iff, Project.requiredKeys, hmodules]
  have hmodule : Module.load (mapping [("entities", mapping [])]) = pure (some {}) := rfl
  rw [Project.load, if_neg (not_not_intro hmissing), hmodules, loadChildren, loadEntries, hmodule]
  exact ⟨_, rfl, rfl⟩

/-- A module whose number has no text cannot be pointed to. -/
theorem answer_droppedIssues_numberedDocument {n : Int} (h : Integer.isWritable n = false) :
    (droppedIssues (numberedDocument n)).answer = .error .numberTooLong := by
  have hwritten : (Value.int n).written = .error .numberTooLong := by
    rw [Value.written, Value.isWritable, h]
    rfl
  have hmodules : (numberedDocument n).field "modules" =
      .map [(.int n, mapping [("entities", mapping [])])] := by
    simp [numberedDocument, mapping, Value.field, Value.lookup]
  obtain ⟨p, hp, -⟩ := exists_load_numberedDocument n
  rw [droppedIssues, Query.answer_bind, hp, ok_bind]
  simp only [hmodules]
  rw [inChildren, inEntries, Query.answer_bind, Query.answer_ofExcept, hwritten]
  rfl

/-- Mappings without issues, and yet the one has a dropped node and the other a fault. -/
theorem droppedIssues_ne_nil :
    (floatWiredDocument.isMap = true ∧
      structureIssues projectSchema floatWiredDocument = .ok [] ∧
      (droppedIssues floatWiredDocument).answer =
        .ok [unsupportedEntity ⟨.str "m", .str "A"⟩]) ∧
    ∃ n, (numberedDocument n).isMap = true ∧
      structureIssues projectSchema (numberedDocument n) = .ok [] ∧
      (droppedIssues (numberedDocument n)).answer = .error .numberTooLong := by
  refine ⟨⟨rfl, structureIssues_floatWiredDocument, rfl⟩, tenTo Integer.digitLimit, rfl,
    structureIssues_numberedDocument _, answer_droppedIssues_numberedDocument ?_⟩
  rw [Integer.isWritable, Int.natAbs_natCast]
  exact decide_eq_false (Nat.lt_irrefl _)

theorem droppedIssues_floatWiredDocument :
    structureIssues projectSchema floatWiredDocument = .ok [] ∧
      (droppedIssues floatWiredDocument).answer =
        .ok [unsupportedEntity ⟨.str "m", .str "A"⟩] := by
  refine ⟨structureIssues_floatWiredDocument, ?_⟩
  have h := droppedIssues_of_structureIssues_eq_nil structureIssues_floatWiredDocument
  have hkeys : floatWiredDocument.keysWritable = true := by decide +kernel
  rcases h with h | ⟨-, hfalse⟩
  · exact h
  · rw [hkeys] at hfalse
    cases hfalse

end Dropped

end EntityGraph
