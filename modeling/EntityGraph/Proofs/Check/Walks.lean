import EntityGraph.Check.Dropped
import EntityGraph.Proofs.Check.Findings
import EntityGraph.Proofs.Model.Completion
import EntityGraph.Proofs.Model.Reading

/-!
# Walks through the nodes of a document

The check for dropped nodes goes down from table to table and joins the names on the way to a
pointer. The check of references sees the loaded project only, but what the project holds was loaded
from the same tables. So what goes over from a node to the entries of its tables holds at every node
that either check comes to; `EntersTables` says that something does, and the walks are made once for
everything of this kind.

A walk ends with what it reports or for want of the text of a number, and with nothing else.
-/

namespace EntityGraph

/-! ## Nodes in tables -/

/-- The keys of the tables that nodes have. -/
def tableKeys : List Text :=
  ["modules", "entities", "enums", "fieldsLocal", "genericMap", "enumMap"]

/-- Whether something that is said of nodes under pointers goes over to the entries of their
tables. -/
def EntersTables (node : Text → Value → Prop) : Prop :=
  ∀ ⦃path v⦄, node path v → ∀ key ∈ tableKeys, ∀ ⦃entries⦄, v.field key = .map entries →
    ∀ e ∈ entries, node (Pointer.join (Pointer.join path key) e.1.plain) e.2

namespace EntersTables

variable {node : Text → Value → Prop} (h : EntersTables node)

include h

/-- What a table holds was loaded from an entry of the same name. -/
theorem exists_of_mem {α : Type} {kind : NodeKind} {load : Value → Query (Option α)} {v : Value}
    {path key : Text} {t : Table α} (hnode : node path v) (hkey : key ∈ tableKeys)
    (ht : (loadChildren kind load (v.field key)).answer = .ok t) :
    ∀ item ∈ t, ∃ w, node (Pointer.join (Pointer.join path key) item.1.plain) w ∧
      (load w).answer = .ok (some item.2) := by
  intro item hitem
  cases hv : v.field key with
  | map entries =>
    rw [hv] at ht
    obtain ⟨e, he, hname, hload⟩ := exists_entry_of_mem_loadEntries ht item hitem
    exact ⟨e.2, hname ▸ h hnode key hkey hv e he, hload⟩
  | _ =>
    rw [hv] at ht
    cases ht
    cases hitem

/-- Every entity of a project was loaded from the node at its pointer. -/
theorem exists_of_mem_flatEntities {document : Value} (hroot : node [] document)
    {p : Project Entity} (hload : (Project.load document).answer = .ok (some p)) :
    ∀ entry ∈ p.flatEntities, ∃ v, node (References.entityPointer entry.1) v ∧
      entry.2.IsReadFrom v := by
  intro entry hentry
  obtain ⟨m, hm, hmem⟩ := List.mem_flatMap.mp hentry
  obtain ⟨e, he, rfl⟩ := List.mem_map.mp hmem
  obtain ⟨w, hmodule, hmoduleLoad⟩ :=
    h.exists_of_mem hroot (by decide) (Project.isReadFrom_of_load hload).modules m hm
  obtain ⟨v, hnode, hentityLoad⟩ :=
    h.exists_of_mem hmodule (by decide) (Module.isReadFrom_of_load hmoduleLoad).entities e he
  exact ⟨v, hnode, Entity.isReadFrom_of_load hentityLoad⟩

end EntersTables

/-! ## Dropped nodes -/

namespace Dropped

/-- The keys that the nodes in tables require. -/
def requirements : List (List Text) :=
  [Module.requiredKeys, Entity.requiredKeys, Enumeration.requiredKeys, Field.requiredKeys,
    EnumItem.requiredKeys]

/-- Whether the issue about a node under a pointer has a property. -/
structure Reports (node : Text → Value → Prop) (property : Issue → Prop) : Prop where
  entersTables : EntersTables node
  dropped {kind : NodeKind} {name : Value} {required : List Text} {path : Text} {v : Value} :
    required ∈ requirements → node path v →
      property ⟨.dropped kind name (reason required v), path⟩

namespace Reports

variable {node : Text → Value → Prop} {property : Issue → Prop} (h : Reports node property)
  {α : Type} {kind : NodeKind} {required : List Text} {path key : Text} {v : Value}
  {load : Value → Query (Option α)} {inside : Value → Text → Query (List Issue)}

theorem settles_leaf (w : Value) (here : Text) (_ : node here w) :
    SettlesAll property (leaf w here).answer := .nil

include h

theorem settles_inEntries (hrequired : required ∈ requirements)
    (hload : ∀ w, Settles False (fun _ ↦ True) (load w).answer)
    (hinside : ∀ w here, node here w → SettlesAll property (inside w here).answer)
    {entries : List (Value × Value)}
    (hentries : ∀ e ∈ entries, node (Pointer.join path e.1.plain) e.2) :
    SettlesAll property (inEntries kind required load path inside entries).answer := by
  induction entries with
  | nil => exact .nil
  | cons e entries ih =>
    obtain ⟨name, w⟩ := e
    obtain ⟨hnode, hrest⟩ := List.forall_mem_cons.mp hentries
    rw [inEntries]
    simp only [Query.answer_bind, Query.answer_ofExcept]
    refine (Settles.written False.elim).bind fun text htext ↦ ?_
    subst htext
    refine (hload w).bind fun found _ ↦ ?_
    cases found with
    | none =>
      simp only [Query.answer_bind, Query.answer_pure]
      exact SettlesAll.append (.singleton (h.dropped hrequired hnode)) (ih hrest)
    | some item =>
      simp only [Query.answer_bind, Query.answer_pure]
      exact (hinside w _ hnode).append (ih hrest)

/-- The children under a key are walked through if what is inside of them is. -/
theorem settles_inChildren (hnode : node path v) (hkey : key ∈ tableKeys)
    (hrequired : required ∈ requirements)
    (hload : ∀ w, Settles False (fun _ ↦ True) (load w).answer)
    (hinside : ∀ w here, node here w → SettlesAll property (inside w here).answer) :
    SettlesAll property
      (inChildren kind required load (Pointer.join path key) inside (v.field key)).answer := by
  cases hv : v.field key with
  | map entries =>
    exact h.settles_inEntries hrequired hload hinside (h.entersTables hnode key hkey hv)
  | _ => exact .nil

omit h in
theorem settles_load {α : Type} {p : Value → Option α → Prop} {load : Value → Query (Option α)}
    (hload : ∀ {w : Value}, (False → w.keysWritable = true) → Settles False (p w) (load w).answer)
    (w : Value) : Settles False (fun _ ↦ True) (load w).answer :=
  (hload False.elim).mono fun _ _ ↦ trivial

theorem settles_inEntity (w : Value) (here : Text) (hnode : node here w) :
    SettlesAll property (inEntity w here).answer := by
  have hmembers {kind : NodeKind} {key : Text} (hkey : key ∈ tableKeys) :
      SettlesAll property (inChildren kind Field.requiredKeys Field.load (Pointer.join here key)
        leaf (w.field key)).answer :=
    h.settles_inChildren hnode hkey (by decide) (settles_load settles_load_field) settles_leaf
  rw [inEntity]
  simp only [Query.answer_bind]
  exact (hmembers (by decide)).append (hmembers (by decide))

theorem settles_inEnumeration (w : Value) (here : Text) (hnode : node here w) :
    SettlesAll property (inEnumeration w here).answer :=
  h.settles_inChildren hnode (by decide) (by decide) (settles_load settles_load_enumItem)
    settles_leaf

theorem settles_inModule (w : Value) (here : Text) (hnode : node here w) :
    SettlesAll property (inModule w here).answer := by
  rw [inModule]
  simp only [Query.answer_bind]
  exact SettlesAll.append
    (h.settles_inChildren hnode (by decide) (by decide) (settles_load settles_load_entity)
      h.settles_inEntity)
    (h.settles_inChildren hnode (by decide) (by decide) (settles_load settles_load_enumeration)
      h.settles_inEnumeration)

/-- What the check for dropped nodes reports has every property that the issue about a node has, if
the issue about a document without a project has it as well. -/
theorem settles_droppedIssues {document : Value} (hroot : node [] document)
    (hnone : property ⟨.notAProject (reason Project.requiredKeys document), []⟩) :
    SettlesAll property (droppedIssues document).answer := by
  rw [droppedIssues, Query.answer_bind]
  refine (settles_load settles_load_project document).bind fun found _ ↦ ?_
  cases found with
  | none => exact SettlesAll.singleton hnone
  | some p =>
    exact h.settles_inChildren hroot (by decide) (by decide) (settles_load settles_load_module)
      h.settles_inModule

end Reports

end Dropped

end EntityGraph
