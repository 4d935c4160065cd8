import EntityGraph.Check.Structure
import EntityGraph.Proofs.Check.Walks
import EntityGraph.Proofs.Graph.Numbering
import EntityGraph.Proofs.Pointer
import EntityGraph.Proofs.Schema.ViolationPaths

/-!
# Issues designate parts of the document

Whatever a check finds in a document whose keys are texts and differ, it finds at a part of the
document: the tokens of the pointer lead to it. The three checks come to their pointers in three
ways. A violation has the keys on the way to it, the walk through the dropped nodes joins names as
it goes down, and the references are told from the graph of the loaded project, whose entities and
fields have to be traced back to where they were loaded from. The last two only need to know that a
pointer that leads to a node leads to the entries of its tables.
-/

namespace EntityGraph

open Schema

/-! ## Pointers into a document -/

/-- Whether the tokens of a pointer lead to a part of a document. -/
def Pointer.Designates (document : Value) (pointer : Text) : Prop :=
  ∃ tokens, pointer = ofTokens tokens ∧ (document.at? tokens).isSome = true

/-- Whether a value with text keys is the part of a document that a pointer designates. -/
structure IsNodeAt (document : Value) (pointer : Text) (v : Value) : Prop where
  place : ∃ tokens, pointer = Pointer.ofTokens tokens ∧ document.at? tokens = some v
  keys : v.HasTextKeys

namespace IsNodeAt

variable {document v : Value} {pointer : Text}

theorem root (h : document.HasTextKeys) : IsNodeAt document [] document := ⟨⟨[], rfl, rfl⟩, h⟩

theorem designates (h : IsNodeAt document pointer v) : Pointer.Designates document pointer := by
  obtain ⟨⟨tokens, hpointer, hv⟩, -⟩ := h
  exact ⟨tokens, hpointer, by rw [hv]; rfl⟩

theorem child (h : IsNodeAt document pointer v) {token : Text} {w : Value}
    (hw : v.child? token = some w) (hkeys : w.HasTextKeys) :
    IsNodeAt document (Pointer.join pointer token) w := by
  obtain ⟨⟨tokens, rfl, hv⟩, -⟩ := h
  refine ⟨⟨tokens ++ [token], Pointer.join_ofTokens tokens token, ?_⟩, hkeys⟩
  rw [Value.at?_append, hv, Option.bind_some, Value.at?_singleton, hw]

/-- The value under a key is a part, unless it is null. -/
theorem field (h : IsNodeAt document pointer v) {key : Text} (hkey : (v.field key).isNull = false) :
    IsNodeAt document (Pointer.join pointer key) (v.field key) :=
  h.child (Value.child?_of_field hkey) (h.keys.field key)

/-- The value of an entry is a part, at the text of its key. -/
theorem entry {entries : List (Value × Value)} (h : IsNodeAt document pointer (.map entries))
    {e : Value × Value} (he : e ∈ entries) :
    ∃ token, e.1 = .str token ∧ IsNodeAt document (Pointer.join pointer token) e.2 := by
  obtain ⟨token, htoken, hchild⟩ := h.keys.child?_of_mem he
  exact ⟨token, htoken, h.child hchild ((Value.hasTextKeys_map_iff.mp h.keys).2 e he).2⟩

/-- A name that is a text is written as itself, so its node stands where a walk says. -/
theorem entersTables : EntersTables (IsNodeAt document) := by
  intro path v h key _ entries hentries e he
  have htable : IsNodeAt document (Pointer.join path key) (v.field key) :=
    h.field (by rw [hentries]; rfl)
  rw [hentries] at htable
  obtain ⟨token, htoken, hnode⟩ := htable.entry he
  rw [htoken]
  exact hnode

end IsNodeAt

/-- Whether an issue is at a part of a document. -/
def Issue.IsPlaced (document : Value) (i : Issue) : Prop :=
  Pointer.Designates document i.pointer

/-! ## Structure -/

/-- The issues of the structure are at parts of the document. -/
theorem isPlaced_structureIssues {document : Value} (h : document.HasTextKeys) (schema : Value) :
    YieldsAll (Issue.IsPlaced document) (structureIssues schema document) := by
  by_cases hmap : document.isMap = true
  · cases hissues : structureIssues schema document with
    | error fault => exact .error fault
    | ok issues =>
      refine .ok fun i hi ↦ ?_
      obtain ⟨x, hx, rfl⟩ := (mem_iff_of_structureIssues hmap hissues i).mp hi
      obtain ⟨tokens, hpath, hpart⟩ := isIn_check _ _ document h x hx
      refine ⟨tokens, ?_, hpart⟩
      rw [Violation.issue, Violation.tokens, hpath, List.map_map]
      exact congrArg Pointer.ofTokens (List.map_id tokens)
  · rw [structureIssues, if_neg hmap]
    exact .singleton (IsNodeAt.root h).designates

/-! ## Dropped nodes -/

/-- The dropped nodes of a document are parts of it. -/
theorem isPlaced_droppedIssues {document : Value} (h : document.HasTextKeys) :
    YieldsAll (Issue.IsPlaced document) (droppedIssues document).answer := by
  have hreports : Dropped.Reports (IsNodeAt document) (Issue.IsPlaced document) :=
    ⟨IsNodeAt.entersTables, fun _ hnode ↦ hnode.designates⟩
  have hroot := IsNodeAt.root h
  exact (hreports.settles_droppedIssues hroot hroot.designates).yieldsAll

/-! ## References -/

namespace References

variable {document : Value}

/-- A path that was read from a part is one itself. -/
theorem designates_of_load {path : Text} {v : Value} (hnode : IsNodeAt document path v) {key : Text}
    {found : ElementPath} (h : ElementPath.load (v.field key) = some found) :
    Pointer.Designates document (Pointer.join path key) := by
  refine (hnode.field ?_).designates
  rw [ElementPath.load] at h
  split at h
  next hmap => exact Value.isNull_eq_false_of_isMap hmap
  next => cases h

/-- Whatever can be found about an entity is about a part of what the entity was loaded from. -/
theorem Concerns.designates {path : ElementPath} {e : Entity} {v : Value} {i : Issue}
    (h : Concerns path e i) (hnode : IsNodeAt document (entityPointer path) v)
    (hread : e.IsReadFrom v) : Pointer.Designates document i.pointer := by
  have hmember {kind : NodeKind} {key token : Text} {f : Field} {t : Table Field}
      (hkey : key ∈ tableKeys)
      (ht : (loadChildren kind Field.load (v.field key)).answer = .ok t)
      (hf : (.str token, f) ∈ t) : Pointer.Designates document
        (Pointer.join (Pointer.join (entityPointer path) key) token) := by
    obtain ⟨w, hmember, -⟩ := IsNodeAt.entersTables.exists_of_mem hnode hkey ht _ hf
    exact hmember.designates
  cases h with
  | parentIsEnumeration h => exact designates_of_load hnode (hread.parent.symm.trans h)
  | parentUnresolved h => exact designates_of_load hnode (hread.parent.symm.trans h)
  | responseUnresolved h => exact designates_of_load hnode (hread.response.symm.trans h)
  | ofField h _ => exact hmember (by decide) hread.fields h
  | ofBinding h _ => exact hmember (by decide) hread.bindings h
  | cyclicInheritance h => exact designates_of_load hnode (hread.parent.symm.trans h)

end References

/-- The reference issues of the project that a document describes are at parts of the document. -/
theorem isPlaced_referenceIssues {document : Value} {p : Project Entity}
    (hkeys : document.HasTextKeys) (h : (Project.load document).answer = .ok (some p)) :
    YieldsAll (Issue.IsPlaced document) (referenceIssues (Graph.ofProject p)).answer := by
  intro issues hissues i hi
  obtain ⟨entry, hentry, hconcerns⟩ := yields_referenceIssues _ _ hissues i hi
  obtain ⟨v, hnode, hread⟩ := IsNodeAt.entersTables.exists_of_mem_flatEntities
    (IsNodeAt.root hkeys) h _ (Graph.mem_flatEntities_of_mem_ofProject hentry)
  exact hconcerns.designates hnode hread

end EntityGraph
