import EntityGraph.Proofs.Check.Dropped
import EntityGraph.Proofs.Model.Completion
import EntityGraph.Proofs.Schema.Location
import EntityGraph.Proofs.Schema.Telling

/-!
# Dropped nodes and violations

Every node that is dropped is one that the schema objects to, and the objection lies in the node
itself: at its pointer or below it. The walk through the dropped nodes carries with it that the
violations of the node it stands at are violations of the document. A loader drops a node only if
the node is not valid; a node that is not valid has a violation; and by what the walk carries, this
is a violation of the document, at a pointer within that of the node.

The exception is the same as for valid documents: an entity whose kind or method is written with a
point may be dropped without a violation.
-/

namespace EntityGraph

open Schema

namespace Dropped

variable {document : Value}

/-- Whether a violation of the document lies within the node of an issue. -/
def IsExplained (document : Value) (i : Issue) : Prop :=
  ∃ x ∈ violations projectSchema document, Pointer.IsWithin i.pointer x.issue.pointer

/-- A part that is not valid explains every issue at its pointer. -/
theorem isExplained_of_covers {name : String} {keys : List Value} {v : Value} {i : Issue}
    (h : Covers document name keys v) (hv : ¬ IsValid name v)
    (hi : i.pointer = Pointer.ofKeys keys) : IsExplained document i := by
  obtain ⟨x, hx⟩ := h.exists_violation hv
  refine ⟨x.below keys, hx, ?_⟩
  have hpointer : (x.below keys).issue.pointer = Pointer.ofKeys (keys ++ x.path) := rfl
  rw [hi, hpointer]
  exact Pointer.isWithin_ofKeys_append keys x.path

section Tables

variable {α : Type} {kind : NodeKind} {required : List Text} {name key : String}
  {load : Value → Query (Option α)} {inside : Value → Text → Query (List Issue)}
  {keys : List Value} {v : Value}

theorem settles_inEntries_isExplained {path : Text} {entries : List (Value × Value)}
    (hnames : ∀ e ∈ entries, e.1.isText = true)
    (hload : ∀ e ∈ entries, Settles True (fun found ↦ found = none →
      ∀ i : Issue, i.pointer = Pointer.join path e.1.plain → IsExplained document i)
        (load e.2).answer)
    (hinside : ∀ e ∈ entries, Settles True (fun issues ↦ ∀ i ∈ issues, IsExplained document i)
      (inside e.2 (Pointer.join path e.1.plain)).answer) :
    Settles True (fun issues ↦ ∀ i ∈ issues, IsExplained document i)
      (inEntries kind required load path inside entries).answer := by
  induction entries with
  | nil => exact fun i hi ↦ absurd hi List.not_mem_nil
  | cons e entries ih =>
    obtain ⟨key, w⟩ := e
    obtain ⟨hname, hrestNames⟩ := List.forall_mem_cons.mp hnames
    obtain ⟨hfirst, hrestLoad⟩ := List.forall_mem_cons.mp hload
    obtain ⟨hbelow, hrestInside⟩ := List.forall_mem_cons.mp hinside
    have hrest := ih hrestNames hrestLoad hrestInside
    rw [inEntries, Query.answer_bind, Query.answer_ofExcept]
    refine (Settles.written fun _ ↦ Value.isWritable_of_isText hname).bind fun token htoken ↦ ?_
    rw [htoken, Query.answer_bind]
    refine hfirst.bind fun found hfound ↦ ?_
    -- What is found here is one issue of the entry, or whatever is inside it.
    have hlater (here : List Issue) (hhere : ∀ i ∈ here, IsExplained document i) :
        Settles True (fun issues ↦ ∀ i ∈ issues, IsExplained document i)
          ((inEntries kind required load path inside entries).answer >>= fun later ↦
            .ok (here ++ later)) := by
      refine hrest.bind fun later hissues i hi ↦ ?_
      exact (List.mem_append.mp hi).elim (hhere i) (hissues i)
    cases found with
    | none =>
      simp only [Query.answer_bind, Query.answer_pure, ok_bind]
      refine hlater _ fun i hi ↦ ?_
      rw [List.mem_singleton.mp hi]
      exact hfound rfl _ rfl
    | some item =>
      simp only [Query.answer_bind, Query.answer_pure]
      exact hbelow.bind hlater

/-- The issues about the entries of a table are explained, if the violations of the entries are
violations of the document and an entry is dropped only where it is not valid. -/
theorem settles_inChildren_isExplained (hkeys : v.keysAreTexts = true)
    (hcovers : ∀ entries, v.field key = .map entries → ∀ e ∈ entries, e.1.isNull = false →
      Covers document name (keys ++ [.str key, e.1]) e.2)
    (hload : ∀ e ∈ entriesOf (v.field key), e.2.keysAreTexts = true →
      Settles True (fun found ↦ found = none → ¬ IsValid name e.2) (load e.2).answer)
    (hinside : ∀ e ∈ entriesOf (v.field key), e.2.keysAreTexts = true →
      ∀ keys, Covers document name keys e.2 →
        Settles True (fun issues ↦ ∀ i ∈ issues, IsExplained document i)
          (inside e.2 (Pointer.ofKeys keys)).answer) :
    Settles True (fun issues ↦ ∀ i ∈ issues, IsExplained document i)
      (inChildren kind required load (Pointer.join (Pointer.ofKeys keys) key) inside
        (v.field key)).answer := by
  have hfield := Value.keysAreTexts_field hkeys key
  cases hentries : v.field key with
  | map entries =>
    rw [hentries] at hfield hload hinside
    have htexts := Value.entryKeysAreTexts_iff.mp hfield
    have hentry (e) (he : e ∈ entries) : Covers document name (keys ++ [.str key, e.1]) e.2 := by
      refine hcovers entries hentries e he ?_
      obtain ⟨t, ht⟩ := Value.isText_iff.mp (htexts e he).1
      rw [ht]
      rfl
    have hpointer (e : Value × Value) : Pointer.ofKeys (keys ++ [.str key, e.1]) =
        Pointer.join (Pointer.join (Pointer.ofKeys keys) key) e.1.plain :=
      Pointer.ofKeys_append keys _
    refine settles_inEntries_isExplained (fun e he ↦ (htexts e he).1) (fun e he ↦ ?_)
      fun e he ↦ ?_
    · refine (hload e he (htexts e he).2).mono fun found hfound hnone i hi ↦ ?_
      exact isExplained_of_covers (hentry e he) (hfound hnone) (hi.trans (hpointer e).symm)
    · rw [← hpointer e]
      exact hinside e he (htexts e he).2 _ (hentry e he)
  | _ => exact fun i hi ↦ absurd hi List.not_mem_nil

end Tables

/-! ## Nodes -/

section Nodes

variable {keys : List Value} {v : Value}

theorem settles_leaf_isExplained {path : Text} :
    Settles True (fun issues ↦ ∀ i ∈ issues, IsExplained document i) (leaf v path).answer :=
  fun _ hi ↦ absurd hi List.not_mem_nil

/-- The issues about the entries of a table in a node. -/
theorem settles_inChildren_of_covers {α : Type} {kind : NodeKind} {required : List Text}
    {load : Value → Query (Option α)} {inside : Value → Text → Query (List Issue)}
    {d : NodeDefinition} {key name : String} (hcovers : Covers document d.name keys v)
    (hd : d ∈ nodeDefinitions) (hp : (key, tableOf name) ∈ d.properties)
    (hkeys : v.keysAreTexts = true)
    (hload : ∀ e ∈ entriesOf (v.field key), e.2.keysAreTexts = true →
      Settles True (fun found ↦ found = none → ¬ IsValid name e.2) (load e.2).answer)
    (hinside : ∀ w keys, w.keysAreTexts = true → Covers document name keys w →
      Settles True (fun issues ↦ ∀ i ∈ issues, IsExplained document i)
        (inside w (Pointer.ofKeys keys)).answer) :
    Settles True (fun issues ↦ ∀ i ∈ issues, IsExplained document i)
      (inChildren kind required load (Pointer.join (Pointer.ofKeys keys) key) inside
        (v.field key)).answer :=
  settles_inChildren_isExplained hkeys
    (fun _ hentries _ he hkey ↦ hcovers.entry hd hp hentries he hkey) hload
    fun e _ hw keys hcovered ↦ hinside e.2 keys hw hcovered

theorem settles_inEntity_isExplained (hcovers : Covers document "entity" keys v)
    (hkeys : v.keysAreTexts = true) :
    Settles True (fun issues ↦ ∀ i ∈ issues, IsExplained document i)
      (inEntity v (Pointer.ofKeys keys)).answer := by
  have hfields (kind : NodeKind) (key : String) (hp : (key, tableOf "field") ∈
      entityDefinition.properties) :
      Settles True (fun issues ↦ ∀ i ∈ issues, IsExplained document i)
        (inChildren kind Field.requiredKeys Field.load (Pointer.join (Pointer.ofKeys keys) key)
          leaf (v.field key)).answer :=
    settles_inChildren_of_covers (d := entityDefinition) hcovers (by simp [nodeDefinitions]) hp
      hkeys
      (fun e _ hw ↦ settles_load_field fun _ ↦ Value.keysWritable_of_keysAreTexts hw)
      fun _ _ _ _ ↦ settles_leaf_isExplained
  rw [inEntity, Query.answer_bind]
  refine (hfields _ _ (by simp [entityDefinition])).bind fun fields hf ↦ ?_
  rw [Query.answer_bind]
  refine (hfields _ _ (by simp [entityDefinition])).bind fun bindings hb ↦ ?_
  intro i hi
  exact (List.mem_append.mp hi).elim (hf i) (hb i)

theorem settles_inEnumeration_isExplained (hcovers : Covers document "enum" keys v)
    (hkeys : v.keysAreTexts = true) :
    Settles True (fun issues ↦ ∀ i ∈ issues, IsExplained document i)
      (inEnumeration v (Pointer.ofKeys keys)).answer :=
  settles_inChildren_of_covers (d := enumDefinition) hcovers (by simp [nodeDefinitions])
    (by simp [enumDefinition]) hkeys
    (fun e _ hw ↦ settles_load_enumItem fun _ ↦ Value.keysWritable_of_keysAreTexts hw)
    fun _ _ _ _ ↦ settles_leaf_isExplained

theorem settles_inModule_isExplained (hcovers : Covers document "module" keys v)
    (hkeys : v.keysAreTexts = true)
    (hwhole : ∀ e ∈ entriesOf (v.field "entities"), isFloatWired e.2 = false) :
    Settles True (fun issues ↦ ∀ i ∈ issues, IsExplained document i)
      (inModule v (Pointer.ofKeys keys)).answer := by
  have hdefinition : moduleDefinition ∈ nodeDefinitions := by simp [nodeDefinitions]
  have hentities : Settles True (fun issues ↦ ∀ i ∈ issues, IsExplained document i)
      (inChildren .entity Entity.requiredKeys Entity.load
        (Pointer.join (Pointer.ofKeys keys) "entities") inEntity (v.field "entities")).answer := by
    refine settles_inChildren_of_covers (d := moduleDefinition) hcovers hdefinition
      (by simp [moduleDefinition]) hkeys
      (fun e he hw ↦ ?_) fun w keys hw hcovered ↦ settles_inEntity_isExplained hcovered hw
    refine (settles_load_entity fun _ ↦ Value.keysWritable_of_keysAreTexts hw).mono
      fun found hfound hnone hvalid ↦ hfound hnone ⟨hvalid, hwhole e he⟩
  have henums : Settles True (fun issues ↦ ∀ i ∈ issues, IsExplained document i)
      (inChildren .enumeration Enumeration.requiredKeys Enumeration.load
        (Pointer.join (Pointer.ofKeys keys) "enums") inEnumeration (v.field "enums")).answer :=
    settles_inChildren_of_covers (d := moduleDefinition) hcovers hdefinition
      (by simp [moduleDefinition]) hkeys
      (fun e _ hw ↦ settles_load_enumeration fun _ ↦ Value.keysWritable_of_keysAreTexts hw)
      fun w keys hw hcovered ↦ settles_inEnumeration_isExplained hcovered hw
  rw [inModule, Query.answer_bind]
  refine hentities.bind fun entities he ↦ ?_
  rw [Query.answer_bind]
  refine henums.bind fun enumerations hn ↦ ?_
  intro i hi
  exact (List.mem_append.mp hi).elim (he i) (hn i)

end Nodes

/-! ## Documents -/

/-- The issues about dropped nodes are explained. -/
theorem settles_droppedIssues_isExplained (hkeys : document.keysAreTexts = true)
    (hwhole : floatWired document = []) :
    Settles True (fun issues ↦ ∀ i ∈ issues, IsExplained document i)
      (droppedIssues document).answer := by
  rw [droppedIssues, Query.answer_bind]
  refine (settles_load_project fun _ ↦ Value.keysWritable_of_keysAreTexts hkeys).bind
    fun found hfound ↦ ?_
  cases found with
  | none =>
    -- The issue is about the whole document, and everything lies within that.
    intro i hi
    rw [List.mem_singleton.mp hi]
    obtain ⟨x, hx⟩ := List.exists_mem_of_ne_nil _ (hfound rfl)
    exact ⟨x, hx, Pointer.isWithin_foldl_join [] x.tokens⟩
  | some p =>
    -- The walk begins at the modules, whose violations are violations of the document.
    have hcovers : ∀ entries, document.field "modules" = .map entries → ∀ e ∈ entries,
        e.1.isNull = false → Covers document "module" ([] ++ [.str "modules", e.1]) e.2 :=
      fun _ hentries _ he hkey ↦ covers_module hentries he hkey
    refine settles_inChildren_isExplained hkeys hcovers
      (fun e _ hw ↦ settles_load_module fun _ ↦ Value.keysWritable_of_keysAreTexts hw)
      fun e he hw keys hcovered ↦ ?_
    exact settles_inModule_isExplained hcovered hw
      (isFloatWired_eq_false_of_floatWired_eq_nil hwhole he)

end Dropped

open Dropped in
/-- In a document whose keys are texts, every issue about a dropped node has an issue of the
structure at its pointer or below it. Only a number without a text keeps the structure from being
told. -/
theorem droppedIssues_isWithin_structureIssues {document : Value} (hmap : document.isMap = true)
    (hkeys : document.keysAreTexts = true) (hwhole : floatWired document = []) :
    ∃ issues, (droppedIssues document).answer = .ok issues ∧
      ((∃ found, structureIssues projectSchema document = .ok found ∧
          ∀ i ∈ issues, ∃ j ∈ found, Pointer.IsWithin i.pointer j.pointer) ∨
        structureIssues projectSchema document = .error .numberTooLong ∧
          document.isWritable = false) := by
  obtain ⟨issues, hissues, hexplained⟩ :=
    (settles_droppedIssues_isExplained hkeys hwhole).exists_answer trivial
  refine ⟨issues, hissues, ?_⟩
  have hstructure := settles_structureIssues hmap
  cases hfound : structureIssues projectSchema document with
  | ok found =>
    rw [hfound] at hstructure
    refine Or.inl ⟨found, rfl, fun i hi ↦ ?_⟩
    obtain ⟨x, hx, hwithin⟩ := hexplained i hi
    exact ⟨x.issue, (hstructure x hx).2, hwithin⟩
  | error fault =>
    rw [hfound] at hstructure
    exact Or.inr ⟨congrArg Except.error hstructure.1, Bool.eq_false_iff.mpr hstructure.2⟩

/-! ## A document with an explained issue, and one without any explanation -/

namespace Dropped

/-- A document with a field that is not a mapping. -/
def brokenFieldDocument : Value :=
  mapping [("modules", mapping [("m", mapping [("entities", mapping [("A", mapping
    [("type", .int 0), ("isAbstract", .bool false), ("fieldsLocal", mapping [("f", .null)]),
      ("genericMap", mapping [])])])])])]

theorem droppedIssues_brokenFieldDocument :
    brokenFieldDocument.keysAreTexts = true ∧ floatWired brokenFieldDocument = [] ∧
      (droppedIssues brokenFieldDocument).answer =
        .ok [⟨.dropped .field (.str "f") .notAMapping, "/modules/m/entities/A/fieldsLocal/f"⟩] ∧
      ∃ found, structureIssues projectSchema brokenFieldDocument = .ok found ∧
        ∃ j ∈ found, Pointer.IsWithin "/modules/m/entities/A/fieldsLocal/f" j.pointer := by
  have hkeys : brokenFieldDocument.keysAreTexts = true := by decide +kernel
  have hwhole : floatWired brokenFieldDocument = [] := rfl
  have hdropped : (droppedIssues brokenFieldDocument).answer =
      .ok [⟨.dropped .field (.str "f") .notAMapping, "/modules/m/entities/A/fieldsLocal/f"⟩] := rfl
  have hwritable : brokenFieldDocument.isWritable = true := by decide +kernel
  refine ⟨hkeys, hwhole, hdropped, ?_⟩
  obtain ⟨issues, hissues, h⟩ := droppedIssues_isWithin_structureIssues rfl hkeys hwhole
  rw [hdropped] at hissues
  cases hissues
  rcases h with ⟨found, hfound, hwithin⟩ | ⟨-, hlong⟩
  · exact ⟨found, hfound, hwithin _ List.mem_cons_self⟩
  · rw [hwritable] at hlong
    cases hlong

/-- A document whose only module is a number. -/
def moduleNumberDocument (n : Int) : Value :=
  mapping [("modules", mapping [("m", .int n)])]

/-- A module that is a number violates its definition. -/
theorem mem_violations_moduleNumberDocument (n : Int) :
    ⟨[.str "modules", .str "m"], .wrongType (.int n) ["object"]⟩ ∈
      violations projectSchema (moduleNumberDocument n) := by
  have hmodules : (moduleNumberDocument n).field "modules" = mapping [("m", .int n)] := by
    simp [moduleNumberDocument, mapping, Value.field, Value.lookup]
  have hcovers : Covers (moduleNumberDocument n) "module" [.str "modules", .str "m"] (.int n) :=
    covers_module hmodules List.mem_cons_self rfl
  refine hcovers ⟨[], .wrongType (.int n) ["object"]⟩ ?_
  have hdefinition := node_mem_projectDefinitions moduleDefinition (by simp [nodeDefinitions])
  rw [show ("module" : String) = moduleDefinition.name from rfl, check_definition hdefinition,
    ofValue_node]
  refine mem_check_all List.mem_cons_self ?_
  rw [checkKeyword]
  exact List.mem_cons_self

/-- The dropped module is reported, and no issue of the structure explains it, because none can be
told. -/
theorem structureIssues_moduleNumberDocument :
    ∃ n, (moduleNumberDocument n).isMap = true ∧ (moduleNumberDocument n).keysAreTexts = true ∧
      floatWired (moduleNumberDocument n) = [] ∧
      (droppedIssues (moduleNumberDocument n)).answer =
        .ok [⟨.dropped .moduleNode (.str "m") .notAMapping, "/modules/m"⟩] ∧
      structureIssues projectSchema (moduleNumberDocument n) = .error .numberTooLong := by
  refine ⟨tenTo Integer.digitLimit, rfl, rfl, rfl, rfl, ?_⟩
  generalize hdocument : moduleNumberDocument (tenTo Integer.digitLimit) = document
  have hviolation := mem_violations_moduleNumberDocument (tenTo Integer.digitLimit)
  rw [hdocument] at hviolation
  have hmap : document.isMap = true := by rw [← hdocument]; rfl
  have hstructure := settles_structureIssues hmap
  cases hfound : structureIssues projectSchema document with
  | error fault =>
    rw [hfound] at hstructure
    exact congrArg Except.error hstructure.1
  | ok found =>
    -- The violation is about the number, and the number has no text.
    rw [hfound] at hstructure
    have htold := (hstructure _ hviolation).1
    rw [Violation.breaksOff, Cause.fault?, Value.isWritable_int_tenTo] at htold
    cases htold

end Dropped

end EntityGraph
