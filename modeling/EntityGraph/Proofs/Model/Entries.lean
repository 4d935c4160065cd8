import EntityGraph.Model.Entries
import EntityGraph.Proofs.Query
import EntityGraph.Table

/-!
# Reading entries

What is found under a key in the entries of a document, and what the loading of named children
keeps. The entries that a node writes are pieces one after the other, some of which may be empty; a
key is looked for in one piece after the other.
-/

namespace EntityGraph

/-! ## Keys -/

namespace Value

variable {key : Text}

theorem mem_of_lookup {entries : List (Value × Value)} {v : Value}
    (h : lookup key entries = some v) : (.str key, v) ∈ entries := by
  induction entries with
  | nil => cases h
  | cons e entries ih =>
    obtain ⟨k, w⟩ := e
    cases k with
    | str s =>
      rw [lookup] at h
      by_cases hs : s = key
      · rw [if_pos hs] at h
        cases h
        rw [hs]
        exact List.mem_cons_self
      · rw [if_neg hs] at h
        exact List.mem_cons_of_mem _ (ih h)
    | _ => exact List.mem_cons_of_mem _ (ih h)

theorem missing_eq_nil_iff {keys : List Text} {v : Value} :
    v.missing keys = [] ↔ ∀ key ∈ keys, (v.field key).isNull = false := by
  rw [Value.missing, List.filter_eq_nil_iff]
  refine forall₂_congr fun key _ ↦ ?_
  rw [Bool.not_eq_true]

@[simp] theorem lookup_append (xs ys : List (Value × Value)) :
    lookup key (xs ++ ys) = (lookup key xs).or (lookup key ys) := by
  induction xs with
  | nil => rfl
  | cons e xs ih =>
    obtain ⟨k, v⟩ := e
    cases k with
    | str s =>
      rw [List.cons_append, lookup, lookup]
      by_cases hs : s = key
      · rw [if_pos hs, if_pos hs]
        rfl
      · rw [if_neg hs, if_neg hs, ih]
    | _ => exact ih

@[simp] theorem lookup_optionalEntry (k : Text) (v : Value) :
    lookup key (optionalEntry k v) = if k = key ∧ v.isNull = false then some v else none := by
  rw [optionalEntry]
  by_cases hv : v.isNull = true
  · rw [if_pos hv, if_neg fun h ↦ Bool.false_ne_true (h.2.symm.trans hv)]
    rfl
  · rw [Bool.not_eq_true] at hv
    simp [hv, lookup]

@[simp] theorem lookup_someEntry (k : Text) (o : Option Value) :
    lookup key (someEntry k o) = if k = key then o else none := by
  cases o with
  | none => rw [someEntry, lookup, ite_self]
  | some v => rw [someEntry, lookup, lookup]

@[simp] theorem isNull_bool (b : Bool) : (Value.bool b).isNull = false := rfl

@[simp] theorem isNull_int (n : Int) : (Value.int n).isNull = false := rfl

@[simp] theorem isNull_map (entries : List (Value × Value)) : (Value.map entries).isNull = false :=
  rfl

theorem isNull_iff {v : Value} : v.isNull = true ↔ v = .null := by
  cases v <;> simp [isNull]

theorem isNull_eq_false_of_isMap {v : Value} (h : v.isMap = true) : v.isNull = false := by
  cases v with
  | map entries => rfl
  | _ => cases h

/-- Null is not written, and what is not written is read as null. -/
@[simp] theorem getD_optional (v : Value) :
    (if v.isNull = false then some v else none).getD .null = v := by
  cases v with
  | null => rfl
  | _ => rfl

end Value

/-! ## Named children -/

section Tables

variable {α : Type} {kind : NodeKind} {load : Value → Query (Option α)}

/-- A table loads again if each of its items does. -/
theorem loadEntries_mapItems {write : α → Value} {t : Table α}
    (h : ∀ e ∈ t, load (write e.2) = pure (some e.2)) :
    loadEntries kind load (t.mapItems write) = pure t := by
  induction t with
  | nil => rfl
  | cons e t ih =>
    have hrest := ih fun e' he' ↦ h e' (List.mem_cons_of_mem _ he')
    rw [Table.mapItems, List.map_cons, loadEntries, h e List.mem_cons_self]
    change (loadEntries kind load (Table.mapItems write t) >>= fun rest ↦ pure (e :: rest)) = _
    rw [hrest]
    rfl

/-- What a table holds was loaded from an entry of the same name. -/
theorem exists_entry_of_mem_loadEntries {entries : List (Value × Value)} {t : Table α}
    (h : (loadEntries kind load entries).answer = .ok t) :
    ∀ item ∈ t, ∃ e ∈ entries, e.1 = item.1 ∧ (load e.2).answer = .ok (some item.2) := by
  induction entries generalizing t with
  | nil =>
    cases h
    exact fun item hitem ↦ absurd hitem List.not_mem_nil
  | cons entry entries ih =>
    obtain ⟨name, v⟩ := entry
    rw [loadEntries, Query.answer_bind] at h
    obtain ⟨found, hfound, h⟩ := bind_eq_ok_iff.mp h
    have hlater {rest : Table α} (hrest : (loadEntries kind load entries).answer = .ok rest) :
        ∀ item ∈ rest, ∃ e ∈ (name, v) :: entries,
          e.1 = item.1 ∧ (load e.2).answer = .ok (some item.2) := by
      intro item hitem
      obtain ⟨e, he, hentry⟩ := ih hrest item hitem
      exact ⟨e, List.mem_cons_of_mem _ he, hentry⟩
    cases found with
    | none => exact hlater h
    | some first =>
      rw [Query.answer_bind] at h
      obtain ⟨rest, hrest, h⟩ := bind_eq_ok_iff.mp h
      cases h
      rw [List.forall_mem_cons]
      exact ⟨⟨(name, v), List.mem_cons_self, rfl, hfound⟩, hlater hrest⟩

/-- What loading ensures of every item, it ensures of the items in a table. -/
theorem forall_mem_of_loadEntries {property : α → Prop} {entries : List (Value × Value)}
    {t : Table α} (hload : ∀ v a, (load v).answer = .ok (some a) → property a)
    (h : (loadEntries kind load entries).answer = .ok t) : ∀ e ∈ t, property e.2 := by
  intro item hitem
  obtain ⟨e, -, -, hentry⟩ := exists_entry_of_mem_loadEntries h item hitem
  exact hload e.2 item.2 hentry

theorem forall_mem_of_loadChildren {property : α → Prop} {v : Value} {t : Table α}
    (hload : ∀ v a, (load v).answer = .ok (some a) → property a)
    (h : (loadChildren kind load v).answer = .ok t) : ∀ e ∈ t, property e.2 := by
  cases v with
  | map entries => exact forall_mem_of_loadEntries hload h
  | _ =>
    cases h
    exact fun e he ↦ absurd he List.not_mem_nil

end Tables

end EntityGraph
