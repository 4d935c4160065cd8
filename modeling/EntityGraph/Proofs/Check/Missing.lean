import EntityGraph.Proofs.Check.Dropped
import EntityGraph.Proofs.Model.Reading

/-!
# Dropped nodes of loaded documents

The report of dropped nodes asks the loaders about every node of a document; the project was built
by the same loaders in one go. Here the report is compared with the project alone. The document and
the project are walked side by side: an entry of a container that was loaded is there in the project
or it is not, and only below an entry that is there the walk goes on. The report has one warning for
each entry that is not there, in the order of the walk.

The report writes the name of every entry that it comes to, whether or not the entry is dropped. So
it fails where one of these names has no text.
-/

namespace EntityGraph

/-- The keys without which a node in this role does not load. -/
def NodeKind.requiredKeys : NodeKind → List Text
  | .moduleNode => Module.requiredKeys
  | .entity => Entity.requiredKeys
  | .enumeration => Enumeration.requiredKeys
  | .field | .genericBinding => Field.requiredKeys
  | .enumItem => EnumItem.requiredKeys

namespace Dropped

/-! ## The walk -/

/-- An entry of a container that was loaded, and whether the entry is held by the project. -/
structure Visited where
  kind : NodeKind
  name : Value
  document : Value
  pointer : Text
  isHeld : Bool

/-- The issue of an entry that the project does not hold. -/
def Visited.issue (e : Visited) : Issue :=
  ⟨.dropped e.kind e.name (reason e.kind.requiredKeys e.document), e.pointer⟩

/-- The entries of a container, each looked for in the table that was loaded from the container, and
what is visited below those that are found. -/
def visitedIn {α : Type} (kind : NodeKind) (path : Text) (below : α → Value → Text → List Visited)
    (t : Table α) (container : Value) : List Visited :=
  (entriesOf container).flatMap fun e ↦
    let here := Pointer.join path e.1.plain
    match t.find? e.1 with
    | none => [⟨kind, e.1, e.2, here, false⟩]
    | some item => ⟨kind, e.1, e.2, here, true⟩ :: below item e.2 here

/-- Nothing is visited below a field or an item of an enumeration. -/
def visitedInLeaf {α : Type} (_ : α) (_ : Value) (_ : Text) : List Visited := []

def visitedInEntity (e : Entity) (v : Value) (path : Text) : List Visited :=
  visitedIn .field (Pointer.join path "fieldsLocal") visitedInLeaf e.fields
      (v.field "fieldsLocal") ++
    visitedIn .genericBinding (Pointer.join path "genericMap") visitedInLeaf e.bindings
      (v.field "genericMap")

def visitedInEnumeration (e : Enumeration) (v : Value) (path : Text) : List Visited :=
  visitedIn .enumItem (Pointer.join path "enumMap") visitedInLeaf e.items (v.field "enumMap")

def visitedInModule (m : Module Entity) (v : Value) (path : Text) : List Visited :=
  visitedIn .entity (Pointer.join path "entities") visitedInEntity m.entities
      (v.field "entities") ++
    visitedIn .enumeration (Pointer.join path "enums") visitedInEnumeration m.enumerations
      (v.field "enums")

/-- The entries of all containers of a document that were loaded, in document order. -/
def visited (p : Project Entity) (document : Value) : List Visited :=
  visitedIn .moduleNode "/modules" visitedInModule p.modules (document.field "modules")

/-! ## The report of a walk -/

/-- The issues of the entries that are not held. -/
def missingAmong (es : List Visited) : List Issue :=
  (es.filter fun e ↦ !e.isHeld).map Visited.issue

/-- The report of some visited entries, if all of them can be named. -/
def reportOn (es : List Visited) : Except Fault (List Issue) :=
  if es.all fun e ↦ e.name.isWritable then .ok (missingAmong es) else .error .numberTooLong

theorem reportOn_append (es fs : List Visited) :
    reportOn (es ++ fs) = do
      let found ← reportOn es
      return found ++ (← reportOn fs) := by
  have hmissing : missingAmong (es ++ fs) = missingAmong es ++ missingAmong fs := by
    rw [missingAmong, List.filter_append, List.map_append]
    rfl
  rw [reportOn, List.all_append, hmissing, reportOn]
  cases es.all fun e ↦ e.name.isWritable with
  | false => rfl
  | true =>
    rw [reportOn]
    cases fs.all fun e ↦ e.name.isWritable with
    | false => rfl
    | true => rfl

/-- The first entry is named before anything below it is looked at. -/
theorem reportOn_cons (e : Visited) (es : List Visited) :
    reportOn (e :: es) = do
      Fault.requireWritable e.name.isWritable
      return missingAmong [e] ++ (← reportOn es) := by
  have hsingle : reportOn [e] =
      (Fault.requireWritable e.name.isWritable >>= fun _ ↦ pure (missingAmong [e])) := by
    rw [reportOn, List.all_cons, List.all_nil, Bool.and_true, Fault.requireWritable]
    cases e.name.isWritable with
    | false => rfl
    | true => rfl
  rw [← List.singleton_append, reportOn_append, hsingle]
  cases Fault.requireWritable e.name.isWritable with
  | error fault => rfl
  | ok _ => rfl

section Tables

variable {α : Type} {kind : NodeKind} {load : Value → Query (Option α)} {path : Text}
  {inside : Value → Text → Query (List Issue)} {below : α → Value → Text → List Visited}
  {t : Table α}

/-- The report on entries is that of the walk through them, if their loader answers with what the
table holds and the report on what is inside a loaded entry is that of the walk below it. -/
theorem answer_inEntries {entries : List (Value × Value)}
    (hload : ∀ e ∈ entries, (load e.2).answer = .ok (t.find? e.1))
    (hinside : ∀ e ∈ entries, ∀ item, t.find? e.1 = some item →
      ∀ here, (inside e.2 here).answer = reportOn (below item e.2 here)) :
    (inEntries kind kind.requiredKeys load path inside entries).answer =
      reportOn (visitedIn kind path below t (.map entries)) := by
  induction entries with
  | nil => rfl
  | cons e entries ih =>
    obtain ⟨name, v⟩ := e
    obtain ⟨hfirst, hrest⟩ := List.forall_mem_cons.mp hload
    obtain ⟨hbelow, hinsideRest⟩ := List.forall_mem_cons.mp hinside
    have hlater := ih hrest hinsideRest
    rw [visitedIn, entriesOf] at hlater
    rw [inEntries, Query.answer_bind, Query.answer_ofExcept, Value.written, visitedIn, entriesOf,
      List.flatMap_cons]
    cases hfound : t.find? name with
    | none =>
      rw [hfound] at hfirst
      simp only
      rw [List.singleton_append, reportOn_cons, ← hlater]
      -- Both sides name the entry first, and without a name there is no more to either.
      cases Fault.requireWritable name.isWritable with
      | error fault => rfl
      | ok _ =>
        simp only [Query.answer_bind, hfirst, ok_bind, pure_bind, Query.answer_pure]
        rfl
    | some item =>
      rw [hfound] at hfirst
      simp only
      rw [List.cons_append, reportOn_cons, reportOn_append, ← hlater,
        ← hbelow item hfound (Pointer.join path name.plain)]
      cases Fault.requireWritable name.isWritable with
      | error fault => rfl
      | ok _ =>
        simp only [Query.answer_bind, hfirst, ok_bind, bind_assoc, pure_bind, Query.answer_pure]
        rfl

/-- The report on a container whose table was loaded from it. A value that is not a mapping has
nothing to report, and nothing is loaded from it. -/
theorem answer_inChildren {container : Value} (hkeys : container.keysDiffer = true)
    (h : (loadChildren kind load container).answer = .ok t)
    (hinside : ∀ v item, v.keysDiffer = true → (load v).answer = .ok (some item) →
      ∀ here, (inside v here).answer = reportOn (below item v here)) :
    (inChildren kind kind.requiredKeys load path inside container).answer =
      reportOn (visitedIn kind path below t container) := by
  cases container with
  | map entries =>
    have hload : ∀ e ∈ entries, (load e.2).answer = .ok (t.find? e.1) :=
      answer_eq_find?_of_loadEntries hkeys h
    refine answer_inEntries hload fun e he item hitem here ↦ ?_
    have hvalue := ((Value.entryKeysDiffer_iff.mp hkeys).2 e he).2
    exact hinside e.2 item hvalue (by rw [hload e he, hitem]) here
  | _ => rfl

end Tables

section Nodes

variable {v : Value} (here : Text)

theorem answer_leaf {α : Type} (item : α) (v : Value) :
    (leaf v here).answer = reportOn (visitedInLeaf item v here) := rfl

theorem answer_inEntity {e : Entity} (hkeys : v.keysDiffer = true)
    (h : (Entity.load v).answer = .ok (some e)) :
    (inEntity v here).answer = reportOn (visitedInEntity e v here) := by
  have hread := Entity.isReadFrom_of_load h
  rw [inEntity, visitedInEntity, reportOn_append,
    ← answer_inChildren (Value.keysDiffer_field hkeys _) hread.fields
      fun w f _ _ below ↦ answer_leaf below f w,
    ← answer_inChildren (Value.keysDiffer_field hkeys _) hread.bindings
      fun w f _ _ below ↦ answer_leaf below f w]
  simp only [Query.answer_bind]
  rfl

theorem answer_inEnumeration {e : Enumeration} (hkeys : v.keysDiffer = true)
    (h : (Enumeration.load v).answer = .ok (some e)) :
    (inEnumeration v here).answer = reportOn (visitedInEnumeration e v here) :=
  answer_inChildren (Value.keysDiffer_field hkeys _) (Enumeration.isReadFrom_of_load h).items
    fun w i _ _ below ↦ answer_leaf below i w

theorem answer_inModule {m : Module Entity} (hkeys : v.keysDiffer = true)
    (h : (Module.load v).answer = .ok (some m)) :
    (inModule v here).answer = reportOn (visitedInModule m v here) := by
  have hread := Module.isReadFrom_of_load h
  rw [inModule, visitedInModule, reportOn_append,
    ← answer_inChildren (Value.keysDiffer_field hkeys _) hread.entities
      fun w e hw he below ↦ answer_inEntity below hw he,
    ← answer_inChildren (Value.keysDiffer_field hkeys _) hread.enumerations
      fun w e hw he below ↦ answer_inEnumeration below hw he]
  simp only [Query.answer_bind]
  rfl

end Nodes

end Dropped

open Dropped in
/-- The dropped nodes of a document that loads are the entries of its loaded containers that the
project does not hold, each with one warning, in document order. There is no report exactly where
one of the entries visited has a name without a text. -/
theorem droppedIssues_of_load {document : Value} {p : Project Entity}
    (hkeys : document.keysDiffer = true) (h : (Project.load document).answer = .ok (some p)) :
    (droppedIssues document).answer =
        (if (visited p document).all fun e ↦ e.name.isWritable then
          .ok (((visited p document).filter fun e ↦ !e.isHeld).map Visited.issue)
        else .error .numberTooLong) ∧
      ∀ e ∈ visited p document, e.issue.severity = .warning := by
  refine ⟨?_, fun e _ ↦ rfl⟩
  have hread := Project.isReadFrom_of_load h
  have hmodules : (inChildren .moduleNode Module.requiredKeys Module.load "/modules" inModule
      (document.field "modules")).answer = reportOn (visited p document) :=
    answer_inChildren (Value.keysDiffer_field hkeys _) hread.modules
      fun w m hw hm below ↦ answer_inModule below hw hm
  rw [droppedIssues, Query.answer_bind, h, ok_bind]
  exact hmodules

/-! ## A document with dropped nodes, and one without a report -/

namespace Dropped

/-- A document in which something is dropped from every container but the bindings: a field, an
entity, an item and a module without a name. -/
def patchyDocument : Value :=
  .map [(.str "modules", .map [
    (.str "m", .map [
      (.str "entities", .map [
        (.str "A", .map [(.str "type", .int 0), (.str "isAbstract", .bool false),
          (.str "fieldsLocal", .map [(.str "f", .null)]), (.str "genericMap", .map [])]),
        (.str "B", .int 3)]),
      (.str "enums", .map [
        (.str "E", .map [(.str "enumMap", .map [
          (.str "x", .map [(.str "value", .int 1)]), (.str "y", .map [])])])])]),
    (.null, .null)])]

/-- What is left of it. -/
def patchyProject : Project Entity where
  modules := [(.str "m",
    { entities := [(.str "A", {})]
      enumerations := [(.str "E", { items := [(.str "x", { value := .int 1 })] })] })]

theorem droppedIssues_patchyDocument :
    patchyDocument.keysDiffer = true ∧
      (Project.load patchyDocument).answer = .ok (some patchyProject) ∧
      (droppedIssues patchyDocument).answer = .ok
        [⟨.dropped .field (.str "f") .notAMapping, "/modules/m/entities/A/fieldsLocal/f"⟩,
          ⟨.dropped .entity (.str "B") .notAMapping, "/modules/m/entities/B"⟩,
          ⟨.dropped .enumItem (.str "y") (.missing ["value"]), "/modules/m/enums/E/enumMap/y"⟩,
          ⟨.dropped .moduleNode .null .notAMapping, "/modules/None"⟩] := by
  have hkeys : patchyDocument.keysDiffer = true := by decide +kernel
  have hload : (Project.load patchyDocument).answer = .ok (some patchyProject) := rfl
  refine ⟨hkeys, hload, ?_⟩
  rw [(droppedIssues_of_load hkeys hload).1]
  rfl

/-- A document whose only module is named by a number without a text: nothing is dropped, and yet
there is no report. -/
theorem droppedIssues_numberedDocument_ne_ok :
    ∃ n p, (numberedDocument n).keysDiffer = true ∧
      (Project.load (numberedDocument n)).answer = .ok (some p) ∧
      ∀ issues, (droppedIssues (numberedDocument n)).answer ≠ .ok issues := by
  refine ⟨tenTo Integer.digitLimit, { modules := [(.int (tenTo Integer.digitLimit), {})] },
    ?_, ?_, ?_⟩
  · rfl
  · rfl
  · intro issues
    rw [answer_droppedIssues_numberedDocument]
    · exact fun h ↦ by cases h
    · exact Value.isWritable_int_tenTo

end Dropped

end EntityGraph
