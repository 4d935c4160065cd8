import EntityGraph.Proofs.Table
import Mathlib.Data.List.Nodup

/-!
# Tables that change

What it does to a table to put an item under a name, to take one away, or to put in all the items of
another table. Where the names are texts and differ, a look-up under any other name answers as
before, and the names keep their places: one that is there already stays where it is, and a new one
comes last.
-/

namespace EntityGraph.Table

variable {α : Type} {t : Table α} {name : Value} {item : α}

/-! ## Names -/

theorem HasTextNames.isSome_find?_iff (h : t.HasTextNames) :
    (t.find? name).isSome = true ↔ name ∈ t.names := by
  rw [Option.isSome_iff_exists]
  constructor
  · rintro ⟨i, hi⟩
    exact mem_names_of_mem (h.find?_eq_some_iff.mp hi)
  · intro hmem
    obtain ⟨⟨n, i⟩, hi, rfl⟩ := List.mem_map.mp hmem
    exact ⟨i, h.find?_eq_some_iff.mpr hi⟩

theorem HasTextNames.find?_eq_none_iff (h : t.HasTextNames) :
    t.find? name = none ↔ name ∉ t.names := by
  rw [← h.isSome_find?_iff, Bool.not_eq_true, Option.isSome_eq_false_iff, Option.isNone_iff_eq_none]

/-! ## Putting an item in -/

/-- A name that is there keeps its place, and one that is not comes last. -/
theorem names_insert (t : Table α) (name : Value) (item : α) :
    (t.insert name item).names =
      if (t.find? name).isSome = true then t.names else t.names ++ [name] := by
  induction t with
  | nil => rfl
  | cons e t ih =>
    obtain ⟨n, i⟩ := e
    rw [insert, find?_cons]
    by_cases hsame : name.same n = true
    · rw [if_pos hsame, if_pos hsame]
      rfl
    · rw [if_neg hsame, if_neg hsame, names, List.map_cons, ← names, ih]
      by_cases hfound : (Table.find? t name).isSome = true
      · rw [if_pos hfound, if_pos hfound]
        rfl
      · rw [if_neg hfound, if_neg hfound]
        rfl

theorem HasTextNames.insert (h : t.HasTextNames) (hname : name.isText = true) :
    (t.insert name item).HasTextNames := by
  have hnew : (t.find? name).isSome ≠ true → name ∉ t.names := mt h.isSome_find?_iff.mpr
  constructor
  · intro n hn
    rw [names_insert] at hn
    split at hn
    next => exact h.texts n hn
    next =>
      rcases List.mem_append.mp hn with hn | hn
      · exact h.texts n hn
      · rw [List.mem_singleton.mp hn]
        exact hname
  · rw [names_insert]
    split
    next => exact h.nodup
    next hmissing =>
      rw [List.nodup_append]
      refine ⟨h.nodup, List.nodup_singleton _, ?_⟩
      rintro n hn m hm rfl
      exact hnew hmissing (List.mem_singleton.mp hm ▸ hn)

theorem HasTextNames.find?_insert_self (h : t.HasTextNames) (hname : name.isText = true) :
    (t.insert name item).find? name = some item := by
  induction t with
  | nil =>
    rw [Table.insert, find?_cons, if_pos ((Value.same_iff_of_isText hname).mpr rfl)]
  | cons e t ih =>
    obtain ⟨n, i⟩ := e
    obtain ⟨-, -, hrest⟩ := hasTextNames_cons.mp h
    rw [Table.insert]
    by_cases hsame : name.same n = true
    · rw [if_pos hsame, find?_cons, if_pos hsame]
    · rw [if_neg hsame, find?_cons, if_neg hsame, ih hrest]

theorem HasTextNames.find?_insert_of_ne (h : t.HasTextNames) (hname : name.isText = true)
    {other : Value} (hne : other ≠ name) : (t.insert name item).find? other = t.find? other := by
  have hother : ¬ other.same name = true := mt (Value.same_iff_of_isText hname).mp hne
  induction t with
  | nil => rw [Table.insert, find?_cons, if_neg hother]
  | cons e t ih =>
    obtain ⟨n, i⟩ := e
    obtain ⟨hn, -, hrest⟩ := hasTextNames_cons.mp h
    rw [Table.insert]
    by_cases hsame : name.same n = true
    · have hfirst : name = n := (Value.same_iff_of_isText hn).mp hsame
      rw [if_pos hsame, find?_cons, find?_cons, ← hfirst, if_neg hother, if_neg hother]
    · rw [if_neg hsame, find?_cons, find?_cons, ih hrest]

theorem mem_insert {e : Value × α} (h : e ∈ t.insert name item) :
    (e.1 = name ∨ ∃ e' ∈ t, e'.1 = e.1) ∧ (e.2 = item ∨ ∃ e' ∈ t, e'.2 = e.2) := by
  induction t with
  | nil =>
    rw [insert, List.mem_singleton] at h
    rw [h]
    exact ⟨Or.inl rfl, Or.inl rfl⟩
  | cons e' t ih =>
    rw [insert] at h
    split at h
    next =>
      rcases List.mem_cons.mp h with rfl | h
      · exact ⟨Or.inr ⟨e', List.mem_cons_self, rfl⟩, Or.inl rfl⟩
      · have he := List.mem_cons_of_mem e' h
        exact ⟨Or.inr ⟨e, he, rfl⟩, Or.inr ⟨e, he, rfl⟩⟩
    next =>
      rcases List.mem_cons.mp h with rfl | h
      · exact ⟨Or.inr ⟨_, List.mem_cons_self, rfl⟩, Or.inr ⟨_, List.mem_cons_self, rfl⟩⟩
      · have later {p : Value × α → Prop} : (∃ e ∈ t, p e) → ∃ e ∈ e' :: t, p e :=
          fun ⟨f, hf, hp⟩ ↦ ⟨f, List.mem_cons_of_mem e' hf, hp⟩
        exact ⟨(ih h).1.imp_right later, (ih h).2.imp_right later⟩

/-! ## Taking an item away -/

theorem erase_sublist (t : Table α) (name : Value) : List.Sublist (t.erase name) t := by
  induction t with
  | nil => exact List.Sublist.slnil
  | cons e t ih =>
    obtain ⟨n, i⟩ := e
    rw [erase]
    split
    next => exact List.sublist_cons_self _ _
    next => exact ih.cons_cons (n, i)

theorem HasTextNames.erase (h : t.HasTextNames) (name : Value) :
    HasTextNames (t.erase name) :=
  h.sublist ((erase_sublist t name).map _)

theorem HasTextNames.find?_erase_of_ne (h : t.HasTextNames) {other : Value} (hne : other ≠ name) :
    Table.find? (t.erase name) other = t.find? other := by
  induction t with
  | nil => rfl
  | cons e t ih =>
    obtain ⟨n, i⟩ := e
    obtain ⟨hn, -, hrest⟩ := hasTextNames_cons.mp h
    rw [Table.erase]
    by_cases hsame : name.same n = true
    · have hfirst : name = n := (Value.same_iff_of_isText hn).mp hsame
      have hother : ¬ other.same n = true := by
        rw [Value.same_iff_of_isText hn, ← hfirst]
        exact hne
      rw [if_pos hsame, find?_cons, if_neg hother]
    · rw [if_neg hsame, find?_cons, find?_cons, ih hrest]

/-! ## Putting in all items of a table -/

section InsertAll

variable {s : Table α}

theorem HasTextNames.foldl_insert (ht : t.HasTextNames) (hs : s.HasTextNames) :
    HasTextNames (s.foldl (fun t e ↦ t.insert e.1 e.2) t) := by
  induction s generalizing t with
  | nil => exact ht
  | cons e s ih =>
    obtain ⟨hname, -, hrest⟩ := hasTextNames_cons.mp hs
    exact ih (ht.insert hname) hrest

/-- The item that was put in counts, wherever there is one. -/
theorem HasTextNames.find?_foldl_insert (ht : t.HasTextNames) (hs : s.HasTextNames)
    (name : Value) :
    Table.find? (s.foldl (fun t e ↦ t.insert e.1 e.2) t) name =
      (s.find? name).or (t.find? name) := by
  induction s generalizing t with
  | nil => rfl
  | cons e s ih =>
    obtain ⟨n, i⟩ := e
    obtain ⟨hn, hnew, hrest⟩ := hasTextNames_cons.mp hs
    rw [List.foldl_cons, ih (ht.insert hn) hrest, find?_cons]
    by_cases hname : name = n
    · have hlater : Table.find? s n = none := hrest.find?_eq_none_iff.mpr hnew
      rw [hname, if_pos ((Value.same_iff_of_isText hn).mpr rfl), hlater, ht.find?_insert_self hn]
      rfl
    · rw [if_neg (mt (Value.same_iff_of_isText hn).mp hname), ht.find?_insert_of_ne hn hname]

/-- The names that were there come first, and then the new ones in their order. -/
theorem HasTextNames.names_foldl_insert (ht : t.HasTextNames) (hs : s.HasTextNames) :
    Table.names (s.foldl (fun t e ↦ t.insert e.1 e.2) t) =
      t.names ++ s.names.filter fun name ↦ !(t.find? name).isSome := by
  induction s generalizing t with
  | nil => exact (List.append_nil _).symm
  | cons e s ih =>
    obtain ⟨n, i⟩ := e
    obtain ⟨hn, hnew, hrest⟩ := hasTextNames_cons.mp hs
    -- The names that are still to come are not the first, so that they are new as before.
    have hlater : ((Table.names s).filter fun name ↦ !((t.insert n i).find? name).isSome) =
        (Table.names s).filter fun name ↦ !(t.find? name).isSome := by
      refine List.filter_congr fun name hname ↦ ?_
      rw [ht.find?_insert_of_ne hn fun heq ↦ hnew (heq ▸ hname)]
    rw [List.foldl_cons, ih (ht.insert hn) hrest, hlater, names_insert,
      show Table.names ((n, i) :: s) = n :: Table.names s from rfl, List.filter_cons]
    cases (t.find? n).isSome with
    | true => rfl
    | false => exact List.append_assoc _ _ _

end InsertAll

end EntityGraph.Table
