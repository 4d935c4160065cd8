import EntityGraph.Proofs.Check.DropRecords
import EntityGraph.Proofs.Schema.Parts

/-!
# References that are lost

An entity refers to two others, its parent and its response. A reference that does not load leaves
the entity without it, and the entity loads all the same; so the report of dropped nodes, which
looks for entries that are not there, has nothing to say of it. Here it is shown when this happens.
Where the report is empty, every entity of the document is in the project, and its references are
those of its value: one is lost exactly if there is something in its place that is not a mapping. In
a valid document this is never so.
-/

namespace EntityGraph

open Dropped (entriesOf visited visitedIn visitedInModule reportOn missingAmong)

/-! ## References -/

/-- One of the references of an entity, and the key that it is read from. -/
structure EntityReference where
  key : Text
  of : Entity → Option ElementPath

namespace EntityReference

/-- Both references. -/
def all : List EntityReference := [⟨"parent", Entity.parent⟩, ⟨"response", Entity.response⟩]

/-- Whether an entity is without a reference although its value has something in the place of it. -/
def IsLost (r : EntityReference) (e : Entity) (v : Value) : Prop :=
  (v.field r.key).isNull = false ∧ r.of e = none

theorem of_eq_load {r : EntityReference} (hr : r ∈ all) {e : Entity} {v : Value}
    (h : e.IsReadFrom v) : r.of e = ElementPath.load (v.field r.key) := by
  simp only [all, List.mem_cons, List.not_mem_nil, or_false] at hr
  rcases hr with rfl | rfl
  · exact h.parent
  · exact h.response

/-- A reference is lost where there is something that is not a mapping. -/
theorem isLost_iff {r : EntityReference} (hr : r ∈ all) {e : Entity} {v : Value}
    (h : e.IsReadFrom v) :
    r.IsLost e v ↔ (v.field r.key).isNull = false ∧ (v.field r.key).isMap = false := by
  rw [IsLost, of_eq_load hr h, ElementPath.load]
  refine and_congr_right fun _ ↦ ?_
  cases (v.field r.key).isMap with
  | true => simp
  | false => simp

/-- The schema asks for a mapping, if there is anything at all. -/
theorem not_isLost_of_isValid {r : EntityReference} (hr : r ∈ all) {e : Entity} {v : Value}
    (h : e.IsReadFrom v) (hvalid : Schema.IsValid "entity" v) : ¬ r.IsLost e v := by
  rw [isLost_iff hr h]
  rintro ⟨hnull, hmap⟩
  have hpath : v.field r.key = .null ∨ Schema.IsValid "elementPath" (v.field r.key) := by
    simp only [all, List.mem_cons, List.not_mem_nil, or_false] at hr
    rcases hr with rfl | rfl
    · exact hvalid.paths.1
    · exact hvalid.paths.2
  rcases hpath with heq | hpath
  · rw [heq] at hnull
    cases hnull
  · rw [hpath.elementPath] at hmap
    cases hmap

end EntityReference

/-! ## Empty reports -/

/-- If nothing is reported of a document that loads, the project holds every entry that is
visited. -/
theorem forall_isHeld_of_droppedIssues_eq_nil {d : Value} {p : Project Entity}
    (hkeys : d.keysDiffer = true) (hload : (Project.load d).answer = .ok (some p))
    (h : (droppedIssues d).answer = .ok []) : ∀ e ∈ visited p d, e.isHeld = true := by
  have hreport : reportOn (visited p d) = .ok [] := by
    rw [← Dropped.answer_droppedIssues_of_load hkeys hload, h]
  have hmissing : missingAmong (visited p d) = [] := by
    rw [reportOn] at hreport
    split at hreport
    next => exact Except.ok.inj hreport
    next => cases hreport
  rw [missingAmong, List.map_eq_nil_iff, List.filter_eq_nil_iff] at hmissing
  intro e he
  simpa using hmissing e he

/-- Where every visited entry is held, each entry of a container has an item in the table. -/
theorem exists_find?_of_forall_isHeld {α : Type} {kind : NodeKind} {path : Text}
    {below : α → Value → Text → List Dropped.Visited} {t : Table α} {container : Value}
    (h : ∀ x ∈ visitedIn kind path below t container, x.isHeld = true) :
    ∀ e ∈ entriesOf container, ∃ item, t.find? e.1 = some item ∧
      ∀ x ∈ below item e.2 (Pointer.join path e.1.plain), x.isHeld = true := by
  intro e he
  rw [visitedIn, List.forall_mem_flatMap] at h
  have hentry := h e he
  cases hfound : t.find? e.1 with
  | none =>
    rw [hfound] at hentry
    have hheld := hentry _ List.mem_cons_self
    cases hheld
  | some item =>
    rw [hfound] at hentry
    exact ⟨item, rfl, fun x hx ↦ hentry x (List.mem_cons_of_mem _ hx)⟩

/-- A table that was loaded from a container has, under the name of an entry, what the value of the
entry was loaded as. -/
theorem answer_of_find? {α : Type} {kind : NodeKind} {load : Value → Query (Option α)}
    {container : Value} {t : Table α} (hkeys : container.keysDiffer = true)
    (hload : (loadChildren kind load container).answer = .ok t) {e : Value × Value}
    (he : e ∈ entriesOf container) {item : α} (hfound : t.find? e.1 = some item) :
    e.2.keysDiffer = true ∧ (load e.2).answer = .ok (some item) := by
  cases container with
  | map entries =>
    exact ⟨((Value.entryKeysDiffer_iff.mp hkeys).2 e he).2,
      by rw [answer_eq_find?_of_loadEntries hkeys hload e he, hfound]⟩
  | _ => cases he

/-! ## Entities of a document without dropped nodes -/

open Schema in
/-- If nothing is reported of a document that loads, every entity of the document is in the project
with the references that are loaded from its value. It is without one although there is something in
the place of it exactly if that is not a mapping, and never if the document is valid. -/
theorem isLost_iff_of_droppedIssues_eq_nil {d : Value} {p : Project Entity}
    (hkeys : d.keysDiffer = true) (hload : (Project.load d).answer = .ok (some p))
    (hdropped : (droppedIssues d).answer = .ok []) :
    ∀ m ∈ entriesOf (d.field "modules"), ∀ e ∈ entriesOf (m.2.field "entities"),
      ∃ aModule entity, p.modules.find? m.1 = some aModule ∧
        aModule.entities.find? e.1 = some entity ∧
        ∀ r ∈ EntityReference.all,
          r.of entity = ElementPath.load (e.2.field r.key) ∧
          (r.IsLost entity e.2 ↔
            (e.2.field r.key).isNull = false ∧ (e.2.field r.key).isMap = false) ∧
          (structureIssues projectSchema d = .ok [] → ¬ r.IsLost entity e.2) := by
  intro m hm e he
  have hheld := forall_isHeld_of_droppedIssues_eq_nil hkeys hload hdropped
  obtain ⟨aModule, hmodule, hbelow⟩ := exists_find?_of_forall_isHeld hheld m hm
  rw [visitedInModule, List.forall_mem_append] at hbelow
  obtain ⟨entity, hentity, -⟩ := exists_find?_of_forall_isHeld hbelow.1 e he
  -- Both nodes were loaded from the values of their entries.
  obtain ⟨hmoduleKeys, hmoduleLoad⟩ := answer_of_find? (Value.keysDiffer_field hkeys _)
    (Project.isReadFrom_of_load hload).modules hm hmodule
  obtain ⟨-, hentityLoad⟩ := answer_of_find? (Value.keysDiffer_field hmoduleKeys _)
    (Module.isReadFrom_of_load hmoduleLoad).entities he hentity
  have hread := Entity.isReadFrom_of_load hentityLoad
  refine ⟨aModule, entity, hmodule, hentity, fun r hr ↦
    ⟨r.of_eq_load hr hread, r.isLost_iff hr hread, fun hvalid ↦ ?_⟩⟩
  obtain ⟨-, entries, hentries, hmodules⟩ :=
    modules_of_violations_eq_nil (violations_eq_nil_of_structureIssues_eq_nil hvalid)
  rw [hentries] at hm
  obtain ⟨-, ⟨entries', hentries', hentities⟩, -⟩ := (hmodules m hm).moduleNode
  rw [hentries'] at he
  exact r.not_isLost_of_isValid hr hread (hentities e he)

/-- Nothing is reported of an entity whose parent is a text and whose response is a mapping, and yet
it is without the parent. -/
theorem isLost_of_parent_text :
    let v : Value := .map [(.str "type", .int 1), (.str "isAbstract", .bool false),
      (.str "fieldsLocal", .map []), (.str "genericMap", .map []), (.str "parent", .str "B"),
      (.str "response", .map [(.str "name", .str "R")])]
    let d : Value := .map [(.str "modules",
      .map [(.str "m", .map [(.str "entities", .map [(.str "A", v)])])])]
    ∃ p, (d.keysDiffer = true ∧ (Project.load d).answer = .ok (some p) ∧
        (droppedIssues d).answer = .ok []) ∧
      ∃ aModule entity, p.modules.find? (.str "m") = some aModule ∧
        aModule.entities.find? (.str "A") = some entity ∧
        EntityReference.IsLost ⟨"parent", Entity.parent⟩ entity v ∧
        entity.response = some ⟨.null, .str "R"⟩ := by
  intro v d
  have hkeys : d.keysDiffer = true := by decide +kernel
  have hdropped : (droppedIssues d).answer = .ok [] := rfl
  obtain ⟨p, hload⟩ : ∃ p, (Project.load d).answer = .ok (some p) := ⟨_, rfl⟩
  obtain ⟨aModule, entity, hmodule, hentity, hreferences⟩ :=
    isLost_iff_of_droppedIssues_eq_nil hkeys hload hdropped (.str "m", _) List.mem_cons_self
      (.str "A", v) List.mem_cons_self
  obtain ⟨-, hparent, -⟩ := hreferences ⟨"parent", Entity.parent⟩ List.mem_cons_self
  obtain ⟨hresponse, -, -⟩ :=
    hreferences ⟨"response", Entity.response⟩ (List.mem_cons_of_mem _ List.mem_cons_self)
  exact ⟨p, ⟨hkeys, hload, hdropped⟩, aModule, entity, hmodule, hentity, hparent.mpr ⟨rfl, rfl⟩,
    hresponse⟩

end EntityGraph
