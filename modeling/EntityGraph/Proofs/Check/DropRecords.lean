import EntityGraph.Proofs.Check.Missing
import Mathlib.Data.List.Forall2

/-!
# Records of drops

Loading notices every entry that it drops, from inside the loaders and before the node around the
entry is finished. The report of dropped nodes comes upon the same entries from the outside, node by
node. Both orders are that of the document, because a node that is not loaded has not begun to load
its children when that is decided: whatever it left are no notices of drops.

`Tells` follows the notices of drops through the steps of a loader. What a loaded node has told in
the end is what the walk through its containers finds missing.
-/

namespace EntityGraph

/-- The role and the name of a node that a notice tells was dropped. -/
def Notice.drop? : Notice → Option (NodeKind × Value)
  | .dropped kind name => some (kind, name)
  | _ => none

/-- The key that nodes in this role stand under in the node around them. -/
def NodeKind.container : NodeKind → Text
  | .moduleNode => "modules"
  | .entity => "entities"
  | .enumeration => "enums"
  | .field => "fieldsLocal"
  | .genericBinding => "genericMap"
  | .enumItem => "enumMap"

/-- The role of the node around a node in this role; around a module there is the project. -/
def NodeKind.around : NodeKind → Option NodeKind
  | .moduleNode => none
  | .entity | .enumeration => some .moduleNode
  | .field | .genericBinding => some .entity
  | .enumItem => some .enumeration

namespace Dropped

/-- What some notices tell was dropped. -/
def drops (notices : List Notice) : List (NodeKind × Value) := notices.filterMap Notice.drop?

/-- The records of drops among those of some notices. -/
def dropRecords (notices : List Notice) : List Log.Record :=
  (notices.filter fun n ↦ n.drop?.isSome).map Notice.record

/-- What a walk has found missing. -/
def missed (es : List Visited) : List (NodeKind × Value) :=
  (es.filter fun e ↦ !e.isHeld).map fun e ↦ (e.kind, e.name)

theorem drops_append (ns ms : List Notice) : drops (ns ++ ms) = drops ns ++ drops ms :=
  List.filterMap_append

theorem missed_append (es fs : List Visited) : missed (es ++ fs) = missed es ++ missed fs := by
  rw [missed, List.filter_append, List.map_append]
  rfl

/-- A record of a drop says what was dropped. -/
theorem dropRecords_eq (notices : List Notice) :
    dropRecords notices = (drops notices).map fun d ↦ (Notice.dropped d.1 d.2).record := by
  induction notices with
  | nil => rfl
  | cons n notices ih =>
    cases n with
    | dropped kind name => exact congrArg ((Notice.dropped kind name).record :: ·) ih
    | _ => exact ih

/-! ## What loaders tell -/

section Tells

variable {α β : Type} {told : List (NodeKind × Value)} {q : Query α} {f : α → Query β}

/-- Whether a query that answers, after some drops were told, leaves just those told that are due
with its answer. -/
def Tells (told : List (NodeKind × Value)) (q : Query α) (due : α → List (NodeKind × Value)) :
    Prop :=
  ∀ a, q.answer = .ok a → told ++ drops q.notices = due a

theorem Tells.pure {a : α} {due : α → List (NodeKind × Value)} (h : told = due a) :
    Tells told (pure a) due := by
  intro a' ha'
  cases ha'
  exact (List.append_nil told).trans h

theorem Tells.bind {due : β → List (NodeKind × Value)}
    (h : ∀ a, q.answer = .ok a → Tells (told ++ drops q.notices) (f a) due) :
    Tells told (q >>= f) due := by
  intro b hb
  rw [Query.answer_bind] at hb
  obtain ⟨a, ha, hb⟩ := bind_eq_ok_iff.mp hb
  rw [Query.notices_bind_of_ok ha, drops_append, ← List.append_assoc]
  exact h a ha b hb

/-- A step that drops nothing tells nothing. -/
theorem Tells.bind_of_drops_eq_nil {due : β → List (NodeKind × Value)}
    (hq : drops q.notices = []) (h : ∀ a, q.answer = .ok a → Tells told (f a) due) :
    Tells told (q >>= f) due := by
  refine .bind fun a ha ↦ ?_
  rw [hq, List.append_nil]
  exact h a ha

end Tells

/-- Whether a loader tells of what the walk below the node that it loads finds missing, and of
nothing if it does not load a node. -/
def TellsBelow {α : Type} (load : Value → Query (Option α))
    (below : α → Value → Text → List Visited) : Prop :=
  ∀ v, v.keysDiffer = true → ∀ here,
    Tells [] (load v) fun found ↦ found.elim [] fun item ↦ missed (below item v here)

section Tables

variable {α : Type} {kind : NodeKind} {load : Value → Query (Option α)}
  {below : α → Value → Text → List Visited} {t : Table α}

/-- Loading entries tells of those that are not in the table, and of what is missing below the
others. -/
theorem drops_loadEntries {path : Text} {entries : List (Value × Value)} {found : List (Value × α)}
    (h : (loadEntries kind load entries).answer = .ok found)
    (hload : ∀ e ∈ entries, (load e.2).answer = .ok (t.find? e.1))
    (hbelow : ∀ e ∈ entries, ∀ here,
      Tells [] (load e.2) fun found ↦ found.elim [] fun item ↦ missed (below item e.2 here)) :
    drops (loadEntries kind load entries).notices =
      missed (visitedIn kind path below t (.map entries)) := by
  induction entries generalizing found with
  | nil => rfl
  | cons e entries ih =>
    obtain ⟨name, v⟩ := e
    obtain ⟨hfirst, hloadRest⟩ := List.forall_mem_cons.mp hload
    obtain ⟨hbelowFirst, hbelowRest⟩ := List.forall_mem_cons.mp hbelow
    have htold := hbelowFirst (Pointer.join path name.plain) _ hfirst
    rw [List.nil_append] at htold
    rw [loadEntries, Query.answer_bind, hfirst, ok_bind] at h
    rw [loadEntries, Query.notices_bind_of_ok hfirst, drops_append, htold, visitedIn, entriesOf,
      List.flatMap_cons, missed_append]
    cases hfound : t.find? name with
    | none =>
      rw [hfound] at h
      have hrest := ih h hloadRest hbelowRest
      rw [visitedIn, entriesOf] at hrest
      simp only
      rw [Query.notices_bind_of_ok rfl, drops_append, hrest]
      rfl
    | some item =>
      rw [hfound] at h
      obtain ⟨rest, hanswer, -⟩ := bind_eq_ok_iff.mp ((Query.answer_bind _ _).symm.trans h)
      have hrest := ih hanswer hloadRest hbelowRest
      rw [visitedIn, entriesOf] at hrest
      simp only
      rw [Query.notices_bind_of_ok hanswer, drops_append, hrest]
      exact congrArg (missed (below item v (Pointer.join path name.plain)) ++ ·)
        (List.append_nil _)

theorem drops_loadChildren {path : Text} {container : Value} (hkeys : container.keysDiffer = true)
    (h : (loadChildren kind load container).answer = .ok t) (hbelow : TellsBelow load below) :
    drops (loadChildren kind load container).notices =
      missed (visitedIn kind path below t container) := by
  cases container with
  | map entries =>
    refine drops_loadEntries h (answer_eq_find?_of_loadEntries hkeys h) fun e he here ↦ ?_
    exact hbelow e.2 ((Value.entryKeysDiffer_iff.mp hkeys).2 e he).2 here
  | _ => rfl

end Tables

section Nodes

variable {v : Value}

/-! ### Leaves -/

mutual

/-- Loading a type may leave a notice, but of no drop. -/
theorem drops_fieldType (v : Value) : drops (FieldType.load v).notices = [] := by
  cases v with
  | map entries =>
    rw [FieldType.load]
    split
    next tag htag =>
      split
      next => rfl
      next =>
        by_cases hobject : tag = "TObject"
        · rw [if_pos hobject]
          rfl
        rw [if_neg hobject]
        by_cases henum : tag = "TEnum"
        · rw [if_pos henum]
          rfl
        rw [if_neg henum]
        by_cases hlist : tag = "TList"
        · rw [if_pos hlist, Logged.map_notices]
          exact drops_member entries
        rw [if_neg hlist]
        by_cases hunknown : tag = "TUnknown"
        · rw [if_pos hunknown]
          rfl
        · rw [if_neg hunknown]
          rfl
    next => rfl
  | _ => rfl

theorem drops_member (entries : List (Value × Value)) :
    drops (FieldType.loadMember entries).notices = [] := by
  cases entries with
  | nil => rfl
  | cons e rest =>
    obtain ⟨key, v⟩ := e
    cases key with
    | str s =>
      rw [FieldType.loadMember]
      by_cases hmember : s = "member"
      · rw [if_pos hmember]
        exact drops_fieldType v
      · rw [if_neg hmember]
        exact drops_member rest
    | _ => exact drops_member rest

end

theorem drops_remarks : drops (Remarks.load v).notices = [] := by
  rw [Remarks.load]
  cases Remarks.settingsOf v with
  | error fault => rfl
  | ok settings => rfl

theorem tellsBelow_field : TellsBelow Field.load visitedInLeaf := by
  intro v hkeys here
  rw [Field.load]
  split
  next => exact .pure rfl
  next =>
    have htype : drops (Query.notices (liftM (FieldType.load (v.field "type")))) = [] := by
      rw [Query.notices_lift]
      exact drops_fieldType _
    refine .bind_of_drops_eq_nil htype fun found _ ↦ ?_
    cases found with
    | none => exact .pure rfl
    | some type =>
      dsimp only
      split
      next => exact .bind_of_drops_eq_nil drops_remarks fun _ _ ↦ .pure rfl
      next => exact .pure rfl

theorem tellsBelow_enumItem : TellsBelow EnumItem.load visitedInLeaf := by
  intro v hkeys here
  rw [EnumItem.load]
  split
  next => exact .pure rfl
  next => exact .bind_of_drops_eq_nil drops_remarks fun _ _ ↦ .pure rfl

/-! ### Nodes with children -/

theorem tellsBelow_enumeration : TellsBelow Enumeration.load visitedInEnumeration := by
  intro v hkeys here
  rw [Enumeration.load]
  split
  next => exact .pure rfl
  next =>
    refine .bind fun items hitems ↦ ?_
    rw [List.nil_append, drops_loadChildren (Value.keysDiffer_field hkeys _) hitems
      tellsBelow_enumItem]
    exact .bind_of_drops_eq_nil drops_remarks fun _ _ ↦ .pure rfl

theorem drops_method : drops (Entity.loadMethod v).notices = [] := by
  rw [Entity.loadMethod]
  split
  next => rfl
  next =>
    split
    next => rfl
    next => rfl

theorem tellsBelow_entity : TellsBelow Entity.load visitedInEntity := by
  intro v hkeys here
  rw [Entity.load]
  split
  next => exact .pure rfl
  next =>
    split
    next isAbstract habstract =>
      split
      next => exact .bind_of_drops_eq_nil rfl fun _ _ ↦ .pure rfl
      next kind hkind =>
        refine .bind_of_drops_eq_nil drops_method fun found _ ↦ ?_
        cases found with
        | none => exact .pure rfl
        | some method =>
          refine .bind fun fields hfields ↦ ?_
          rw [List.nil_append, drops_loadChildren (Value.keysDiffer_field hkeys _) hfields
            tellsBelow_field]
          refine .bind fun bindings hbindings ↦ ?_
          rw [drops_loadChildren (Value.keysDiffer_field hkeys _) hbindings tellsBelow_field,
            ← missed_append]
          exact .bind_of_drops_eq_nil drops_remarks fun _ _ ↦ .pure rfl
    next => exact .bind_of_drops_eq_nil rfl fun _ _ ↦ .pure rfl

theorem tellsBelow_module : TellsBelow Module.load visitedInModule := by
  intro v hkeys here
  rw [Module.load]
  split
  next => exact .pure rfl
  next =>
    refine .bind fun entities hentities ↦ ?_
    rw [List.nil_append, drops_loadChildren (Value.keysDiffer_field hkeys _) hentities
      tellsBelow_entity]
    split
    next hnull =>
      refine .pure ?_
      rw [Option.elim, visitedInModule, Value.isNull_iff.mp hnull]
      exact congrArg missed (List.append_nil _).symm
    next =>
      refine .bind fun enumerations henumerations ↦ ?_
      rw [drops_loadChildren (Value.keysDiffer_field hkeys _) henumerations
        tellsBelow_enumeration, ← missed_append]
      exact .pure rfl

/-- Loading a document tells of the drops that the walk through it finds missing, in its order. -/
theorem drops_load {document : Value} {p : Project Entity} (hkeys : document.keysDiffer = true)
    (h : (Project.load document).answer = .ok (some p)) :
    drops (Project.load document).notices = missed (visited p document) := by
  have htells : Tells [] (Project.load document) fun found ↦
      found.elim [] fun p ↦ missed (visited p document) := by
    rw [Project.load]
    split
    next => exact .pure rfl
    next =>
      refine .bind fun modules hmodules ↦ ?_
      rw [List.nil_append, drops_loadChildren (Value.keysDiffer_field hkeys _) hmodules
        tellsBelow_module]
      exact .bind_of_drops_eq_nil rfl fun _ _ ↦ .pure rfl
  exact htells _ h

end Nodes

/-! ## Nodes of a document -/

/-- The value that stands at a pointer in a document, and the role and the name that it has there;
the document itself has neither. -/
inductive NodeAt (document : Value) : Option (NodeKind × Value) → Text → Value → Prop where
  | root : NodeAt document none [] document
  | child {above : Option (NodeKind × Value)} {path : Text} {v node : Value} {kind : NodeKind}
      {name : Value} :
    NodeAt document above path v → above.map (·.1) = kind.around →
      (name, node) ∈ entriesOf (v.field kind.container) →
        NodeAt document (some (kind, name))
          (Pointer.join (Pointer.join path kind.container) name.plain) node

/-- Whether a visited entry is the node at its pointer. -/
def Visited.IsAt (document : Value) (e : Visited) : Prop :=
  NodeAt document (some (e.kind, e.name)) e.pointer e.document

section NodeAt

variable {document : Value}

/-- What is visited in a container of a node are its children, and what is visited below them. -/
theorem isAt_of_mem_visitedIn {α : Type} {kind : NodeKind}
    {below : α → Value → Text → List Visited} {t : Table α} {above : Option (NodeKind × Value)}
    {path : Text} {v : Value} (hv : NodeAt document above path v)
    (hkind : above.map (·.1) = kind.around)
    (hbelow : ∀ item name node here, NodeAt document (some (kind, name)) here node →
      ∀ e ∈ below item node here, e.IsAt document) :
    ∀ e ∈ visitedIn kind (Pointer.join path kind.container) below t (v.field kind.container),
      e.IsAt document := by
  intro e he
  obtain ⟨⟨name, node⟩, hentry, he⟩ := List.mem_flatMap.mp he
  have hnode := hv.child hkind hentry
  dsimp only at he
  cases hfound : t.find? name with
  | none =>
    rw [hfound, List.mem_singleton] at he
    rw [he]
    exact hnode
  | some item =>
    rw [hfound] at he
    rcases List.mem_cons.mp he with rfl | he
    · exact hnode
    · exact hbelow item name node _ hnode e he

theorem isAt_of_mem_visitedInEntity (e : Entity) (name v : Value) (path : Text)
    (h : NodeAt document (some (.entity, name)) path v) :
    ∀ x ∈ visitedInEntity e v path, x.IsAt document := by
  intro x hx
  rcases List.mem_append.mp hx with hx | hx
  · exact isAt_of_mem_visitedIn h rfl (fun _ _ _ _ _ _ h ↦ absurd h List.not_mem_nil) x hx
  · exact isAt_of_mem_visitedIn h rfl (fun _ _ _ _ _ _ h ↦ absurd h List.not_mem_nil) x hx

theorem isAt_of_mem_visitedInEnumeration (e : Enumeration) (name v : Value) (path : Text)
    (h : NodeAt document (some (.enumeration, name)) path v) :
    ∀ x ∈ visitedInEnumeration e v path, x.IsAt document :=
  isAt_of_mem_visitedIn h rfl fun _ _ _ _ _ _ h ↦ absurd h List.not_mem_nil

theorem isAt_of_mem_visitedInModule (m : Module Entity) (name v : Value) (path : Text)
    (h : NodeAt document (some (.moduleNode, name)) path v) :
    ∀ x ∈ visitedInModule m v path, x.IsAt document := by
  intro x hx
  rcases List.mem_append.mp hx with hx | hx
  · exact isAt_of_mem_visitedIn h rfl isAt_of_mem_visitedInEntity x hx
  · exact isAt_of_mem_visitedIn h rfl isAt_of_mem_visitedInEnumeration x hx

theorem isAt_of_mem_visited (p : Project Entity) :
    ∀ e ∈ visited p document, e.IsAt document :=
  isAt_of_mem_visitedIn .root rfl isAt_of_mem_visitedInModule

end NodeAt

/-! ## Records and issues -/

/-- The report of a document that loads is that of the walk through it. -/
theorem answer_droppedIssues_of_load {document : Value} {p : Project Entity}
    (hkeys : document.keysDiffer = true) (h : (Project.load document).answer = .ok (some p)) :
    (droppedIssues document).answer = reportOn (visited p document) := by
  have hread := Project.isReadFrom_of_load h
  rw [droppedIssues, Query.answer_bind, h, ok_bind]
  exact answer_inChildren (Value.keysDiffer_field hkeys _) hread.modules
    fun w m hw hm below ↦ answer_inModule below hw hm

/-- Whether a record is the warning about the node that an issue points to and finds dropped: it
says what role and what name the node has. -/
def TellsOf (document : Value) (record : Log.Record) (issue : Issue) : Prop :=
  ∃ kind name node, NodeAt document (some (kind, name)) issue.pointer node ∧
    issue.finding = .dropped kind name (reason kind.requiredKeys node) ∧
    record.level = .warning ∧
    record.message = "Dropping malformed " ++ kind.name ++ " '" ++ name.plain ++ "'"

/-- The records of drops that loading a document leaves are about the nodes that the report of
dropped nodes points to, one for one and in the same order, if every name that the report comes to
has a text. Otherwise there is no report. -/
theorem dropRecords_match_droppedIssues {document : Value} {p : Project Entity}
    (hkeys : document.keysDiffer = true) (h : (Project.load document).answer = .ok (some p)) :
    ((∀ e ∈ visited p document, e.name.isWritable = true) →
      ∃ issues, (droppedIssues document).answer = .ok issues ∧
        List.Forall₂ (TellsOf document) (dropRecords (Project.load document).notices) issues) ∧
    (¬ (∀ e ∈ visited p document, e.name.isWritable = true) →
      (droppedIssues document).answer = .error .numberTooLong) := by
  rw [answer_droppedIssues_of_load hkeys h, reportOn]
  constructor
  · intro hwritable
    refine ⟨_, if_pos (List.all_eq_true.mpr hwritable), ?_⟩
    rw [dropRecords_eq, drops_load hkeys h, missed, missingAmong, List.map_map,
      List.forall₂_map_left_iff, List.forall₂_map_right_iff, List.forall₂_same]
    intro e he
    exact ⟨e.kind, e.name, e.document,
      isAt_of_mem_visited p e (List.mem_of_mem_filter he), rfl, rfl, rfl⟩
  · intro hunwritable
    exact if_neg fun hall ↦ hunwritable (List.all_eq_true.mp hall)

theorem dropRecords_match_patchyDocument :
    (∀ e ∈ visited patchyProject patchyDocument, e.name.isWritable = true) ∧
      ∃ issues, (droppedIssues patchyDocument).answer = .ok issues ∧
        List.Forall₂ (TellsOf patchyDocument)
          (dropRecords (Project.load patchyDocument).notices) issues ∧
        (dropRecords (Project.load patchyDocument).notices).map (·.message) =
          ["Dropping malformed field 'f'", "Dropping malformed entity 'B'",
            "Dropping malformed enum item 'y'", "Dropping malformed module 'None'"] := by
  have hkeys : patchyDocument.keysDiffer = true := by decide +kernel
  have hload : (Project.load patchyDocument).answer = .ok (some patchyProject) := rfl
  have hwritable : ∀ e ∈ visited patchyProject patchyDocument, e.name.isWritable = true :=
    List.all_eq_true.mp rfl
  obtain ⟨issues, hissues, hmatch⟩ := (dropRecords_match_droppedIssues hkeys hload).1 hwritable
  exact ⟨hwritable, issues, hissues, hmatch, rfl⟩

/-- Where a module is named by a number without a text there are no records of drops, and no report
either that could have no issues. -/
theorem dropRecords_match_no_droppedIssues :
    ∃ n p, (numberedDocument n).keysDiffer = true ∧
      (Project.load (numberedDocument n)).answer = .ok (some p) ∧
      dropRecords (Project.load (numberedDocument n)).notices = [] ∧
      ¬ ∃ issues, (droppedIssues (numberedDocument n)).answer = .ok issues ∧
        List.Forall₂ (TellsOf (numberedDocument n))
          (dropRecords (Project.load (numberedDocument n)).notices) issues := by
  refine ⟨tenTo Integer.digitLimit, { modules := [(.int (tenTo Integer.digitLimit), {})] },
    rfl, rfl, rfl, ?_⟩
  rintro ⟨issues, hissues, -⟩
  rw [answer_droppedIssues_numberedDocument Value.isWritable_int_tenTo] at hissues
  cases hissues

end Dropped

end EntityGraph
