import EntityGraph.Model.Project
import EntityGraph.Proofs.Value.Keys

/-!
# What a node was read from

A node that was loaded says of the value it was read from everything that its loader has looked at:
which keys were there, what stood under each of them, and which tables its children were loaded
from. `IsReadFrom` lists this for each kind of node, one part of the node after the other, so that
nobody has to go through the steps of a loader again.
-/

namespace EntityGraph

/-! ## Tables -/

section Tables

variable {α : Type} {kind : NodeKind} {load : Value → Query (Option α)}

theorem Table.find?_cons (t : Table α) (key name : Value) (item : α) :
    Table.find? ((key, item) :: t) name =
      if name.same key = true then some item else t.find? name := by
  rw [Table.find?, List.find?_cons]
  cases name.same key with
  | true => rfl
  | false => rfl

/-- A table that was loaded from entries whose keys differ holds, under each key, exactly what the
value there loads as. -/
theorem answer_eq_find?_of_loadEntries {entries : List (Value × Value)} {t : Table α}
    (hkeys : Value.entryKeysDiffer entries = true)
    (h : (loadEntries kind load entries).answer = .ok t) :
    ∀ e ∈ entries, (load e.2).answer = .ok (t.find? e.1) := by
  induction entries generalizing t with
  | nil => exact fun e he ↦ absurd he List.not_mem_nil
  | cons entry entries ih =>
    obtain ⟨name, v⟩ := entry
    obtain ⟨hpairs, hparts⟩ := Value.entryKeysDiffer_iff.mp hkeys
    obtain ⟨hfirst, hrestPairs⟩ := List.pairwise_cons.mp hpairs
    obtain ⟨⟨hname, -⟩, hrestParts⟩ := List.forall_mem_cons.mp hparts
    have hrestKeys := Value.entryKeysDiffer_iff.mpr ⟨hrestPairs, hrestParts⟩
    rw [loadEntries, Query.answer_bind] at h
    obtain ⟨found, hfound, h⟩ := bind_eq_ok_iff.mp h
    rw [List.forall_mem_cons]
    cases found with
    | none =>
      refine ⟨?_, ih hrestKeys h⟩
      have habsent : t.find? name = none := by
        rw [Table.find?, Option.map_eq_none_iff, List.find?_eq_none]
        intro item hitem
        obtain ⟨e, he, hkey, -⟩ := exists_entry_of_mem_loadEntries h item hitem
        rw [← hkey, hfirst e he]
        exact Bool.false_ne_true
      rw [habsent]
      exact hfound
    | some item =>
      rw [Query.answer_bind] at h
      obtain ⟨rest, hrest, h⟩ := bind_eq_ok_iff.mp h
      cases h
      constructor
      · rw [Table.find?_cons, if_pos (Value.same_self hname)]
        exact hfound
      · intro e he
        -- The key of a later entry is not that of the first, whichever is compared with the other.
        have hother : ¬ e.1.same name = true := by
          rw [← Value.same_comm hname, hfirst e he]
          exact Bool.false_ne_true
        rw [Table.find?_cons, if_neg hother]
        exact ih hrestKeys hrest e he

end Tables

/-! ## Nodes -/

/-- The parts of an item and the value it was read from. -/
structure EnumItem.IsReadFrom (i : EnumItem) (v : Value) : Prop where
  value : number? (v.field "value") = some i.value
  realname : i.realname = v.field "realname"
  remarks : (Remarks.load v).answer = .ok i.remarks

theorem EnumItem.isReadFrom_of_load {v : Value} {i : EnumItem}
    (h : (load v).answer = .ok (some i)) : i.IsReadFrom v := by
  rw [load] at h
  split at h
  next => cases h
  next value hvalue =>
    rw [Query.answer_bind] at h
    obtain ⟨remarks, hremarks, h⟩ := bind_eq_ok_iff.mp h
    cases h
    exact ⟨hvalue, rfl, hremarks⟩

/-- The parts of an enumeration and the value it was read from. -/
structure Enumeration.IsReadFrom (e : Enumeration) (v : Value) : Prop where
  missing : v.missing requiredKeys = []
  items : (loadChildren .enumItem EnumItem.load (v.field "enumMap")).answer = .ok e.items
  remarks : (Remarks.load v).answer = .ok e.remarks

theorem Enumeration.isReadFrom_of_load {v : Value} {e : Enumeration}
    (h : (load v).answer = .ok (some e)) : e.IsReadFrom v := by
  rw [load] at h
  split at h
  next => cases h
  next hmissing =>
    rw [Query.answer_bind] at h
    obtain ⟨items, hitems, h⟩ := bind_eq_ok_iff.mp h
    rw [Query.answer_bind] at h
    obtain ⟨remarks, hremarks, h⟩ := bind_eq_ok_iff.mp h
    cases h
    exact ⟨Decidable.of_not_not hmissing, hitems, hremarks⟩

/-- The parts of a field and the value it was read from. -/
structure Field.IsReadFrom (f : Field) (v : Value) : Prop where
  missing : v.missing requiredKeys = []
  type : (FieldType.load (v.field "type")).value = some f.type
  isOptional : v.field "isOptional" = .bool f.isOptional
  isPathParameter : v.field "isPathParameter" = .bool f.isPathParameter
  realname : f.realname = v.field "realname"
  fixedValue : f.fixedValue = v.field "fixedValue"
  remarks : (Remarks.load v).answer = .ok f.remarks

theorem Field.isReadFrom_of_load {v : Value} {f : Field} (h : (load v).answer = .ok (some f)) :
    f.IsReadFrom v := by
  rw [load] at h
  split at h
  next => cases h
  next hmissing =>
    rw [Query.answer_bind, Query.answer_lift] at h
    obtain ⟨found, hfound, h⟩ := bind_eq_ok_iff.mp h
    cases hfound
    split at h
    next => cases h
    next type htype =>
      split at h
      next isOptional isPathParameter hoptional hparameter =>
        rw [Query.answer_bind] at h
        obtain ⟨remarks, hremarks, h⟩ := bind_eq_ok_iff.mp h
        cases h
        exact ⟨Decidable.of_not_not hmissing, htype, hoptional, hparameter, rfl, rfl, hremarks⟩
      next => cases h

/-- The parts of an entity and the value it was read from. -/
structure Entity.IsReadFrom (e : Entity) (v : Value) : Prop where
  missing : v.missing requiredKeys = []
  isAbstract : v.field "isAbstract" = .bool e.isAbstract
  kind : EntityKind.ofWire? (v.field "type") = some e.kind
  method : (loadMethod (v.field "method")).answer = .ok (some e.method)
  fields : (loadChildren .field Field.load (v.field "fieldsLocal")).answer = .ok e.fields
  bindings : (loadChildren .genericBinding Field.load (v.field "genericMap")).answer =
    .ok e.bindings
  parent : e.parent = ElementPath.load (v.field "parent")
  response : e.response = ElementPath.load (v.field "response")
  path : e.path = v.field "path"
  remarks : (Remarks.load v).answer = .ok e.remarks

theorem Entity.isReadFrom_of_load {v : Value} {e : Entity} (h : (load v).answer = .ok (some e)) :
    e.IsReadFrom v := by
  rw [load] at h
  split at h
  next => cases h
  next hmissing =>
    split at h
    next isAbstract habstract =>
      split at h
      next => cases h
      next kind hkind =>
        rw [Query.answer_bind] at h
        obtain ⟨found, hmethod, h⟩ := bind_eq_ok_iff.mp h
        split at h
        next => cases h
        next method =>
          rw [Query.answer_bind] at h
          obtain ⟨fields, hfields, h⟩ := bind_eq_ok_iff.mp h
          rw [Query.answer_bind] at h
          obtain ⟨bindings, hbindings, h⟩ := bind_eq_ok_iff.mp h
          rw [Query.answer_bind] at h
          obtain ⟨remarks, hremarks, h⟩ := bind_eq_ok_iff.mp h
          cases h
          exact ⟨Decidable.of_not_not hmissing, habstract, hkind, hmethod, hfields, hbindings, rfl,
            rfl, rfl, hremarks⟩
    next => cases h

/-- The parts of a module and the value it was read from. Without enumerations there are none. -/
structure Module.IsReadFrom (m : Module Entity) (v : Value) : Prop where
  missing : v.missing requiredKeys = []
  entities : (loadChildren .entity Entity.load (v.field "entities")).answer = .ok m.entities
  enumerations : (loadChildren .enumeration Enumeration.load (v.field "enums")).answer =
    .ok m.enumerations

theorem Module.isReadFrom_of_load {v : Value} {m : Module Entity}
    (h : (load v).answer = .ok (some m)) : m.IsReadFrom v := by
  rw [load] at h
  split at h
  next => cases h
  next hmissing =>
    rw [Query.answer_bind] at h
    obtain ⟨entities, hentities, h⟩ := bind_eq_ok_iff.mp h
    split at h
    next hnull =>
      cases h
      have hfield : v.field "enums" = .null := by
        cases hv : v.field "enums" with
        | null => rfl
        | _ => rw [hv] at hnull; cases hnull
      refine ⟨Decidable.of_not_not hmissing, hentities, ?_⟩
      rw [hfield]
      rfl
    next =>
      rw [Query.answer_bind] at h
      obtain ⟨enumerations, henumerations, h⟩ := bind_eq_ok_iff.mp h
      cases h
      exact ⟨Decidable.of_not_not hmissing, hentities, henumerations⟩

/-- The parts of a project and the value it was read from. -/
structure Project.IsReadFrom (p : Project Entity) (v : Value) : Prop where
  missing : v.missing requiredKeys = []
  name : p.name = label (v.field "name")
  version : p.version = label (v.field "version")
  targetPackage : p.targetPackage = label (v.field "targetPackage")
  modules : (loadChildren .moduleNode Module.load (v.field "modules")).answer = .ok p.modules

theorem Project.isReadFrom_of_load {v : Value} {p : Project Entity}
    (h : (load v).answer = .ok (some p)) : p.IsReadFrom v := by
  rw [load] at h
  split at h
  next => cases h
  next hmissing =>
    rw [Query.answer_bind] at h
    obtain ⟨modules, hmodules, h⟩ := bind_eq_ok_iff.mp h
    cases h
    exact ⟨Decidable.of_not_not hmissing, rfl, rfl, rfl, hmodules⟩

end EntityGraph
