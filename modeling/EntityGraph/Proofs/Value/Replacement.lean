import EntityGraph.Proofs.Value.Reordering

/-!
# Replacing a part of a value

A path is a list of keys, each of them leading to an entry of a mapping. Replacing what a path leads
to puts another value in its place; the entries around it, and those of every mapping on the way,
stay as they are and where they are.

`Hangs p path q` says of two conditions that the first is one on the part at a path only: where it
holds, the part there meets the second, and after a replacement the first holds again exactly if the
new part meets the second. Such conditions compose along paths.
-/

namespace EntityGraph

/-- What is put under a name that is there comes to stand in the place of what it replaces. -/
theorem Table.exists_split_of_find? {α : Type} {t : Table α} {name : Value} {old : α}
    (h : t.find? name = some old) :
    ∃ earlier key later, t = earlier ++ (key, old) :: later ∧ name.same key = true ∧
      ∀ new, t.insert name new = earlier ++ (key, new) :: later := by
  induction t with
  | nil => cases h
  | cons e t ih =>
    obtain ⟨key, item⟩ := e
    rw [find?_cons] at h
    by_cases hsame : name.same key = true
    · rw [if_pos hsame] at h
      cases h
      exact ⟨[], key, t, rfl, hsame, fun new ↦ by rw [insert, if_pos hsame, List.nil_append]⟩
    · rw [if_neg hsame] at h
      obtain ⟨earlier, found, later, rfl, hfound, hinsert⟩ := ih h
      refine ⟨(key, item) :: earlier, found, later, rfl, hfound, fun new ↦ ?_⟩
      rw [insert, if_neg hsame, hinsert, List.cons_append]

namespace Value

/-! ## Texts as keys -/

theorem str_same_iff {s : Text} {v : Value} : (Value.str s).same v = true ↔ v = .str s := by
  rw [same_comm rfl, same_iff_of_isText rfl]

theorem lookup_insert_self (key : Text) (w : Value) (entries : List (Value × Value)) :
    lookup key (Table.insert entries (.str key) w) = some w := by
  rw [lookup_eq_find?]
  induction entries with
  | nil => rw [Table.insert, Table.find?_cons, if_pos (same_self rfl)]
  | cons e entries ih =>
    obtain ⟨k, v⟩ := e
    rw [Table.insert]
    by_cases hsame : (Value.str key).same k = true
    · rw [if_pos hsame, Table.find?_cons, if_pos hsame]
    · rw [if_neg hsame, Table.find?_cons, if_neg hsame, ih]

theorem lookup_insert_of_ne {key other : Text} (hne : other ≠ key) (w : Value)
    (entries : List (Value × Value)) :
    lookup other (Table.insert entries (.str key) w) = lookup other entries := by
  have hother : ¬ (Value.str other).same (.str key) = true :=
    fun h ↦ hne (Value.str.inj (str_same_iff.mp h)).symm
  rw [lookup_eq_find?, lookup_eq_find?]
  induction entries with
  | nil => rw [Table.insert, Table.find?_cons, if_neg hother]
  | cons e entries ih =>
    obtain ⟨k, v⟩ := e
    rw [Table.insert]
    by_cases hsame : (Value.str key).same k = true
    · cases str_same_iff.mp hsame
      rw [if_pos hsame, Table.find?_cons, if_neg hother, Table.find?_cons, if_neg hother]
    · rw [if_neg hsame, Table.find?_cons, Table.find?_cons, ih]

/-! ## Paths -/

/-- The part of a value that a path of keys leads to. -/
def reach? : List Value → Value → Option Value
  | [], v => some v
  | name :: path, .map entries => (Table.find? entries name).bind (reach? path)
  | _ :: _, _ => none

/-- A value with another part at the end of a path. -/
def replaceAt : List Value → Value → Value → Value
  | [], _, new => new
  | name :: path, .map entries, new =>
    match Table.find? entries name with
    | some old => .map (Table.insert entries name (replaceAt path old new))
    | none => .map entries
  | _ :: _, v, _ => v

@[simp] theorem replaceAt_nil (v new : Value) : v.replaceAt [] new = new := by
  rw [replaceAt]

theorem replaceAt_cons {name old : Value} {entries : List (Value × Value)}
    (h : Table.find? entries name = some old) (path : List Value) (new : Value) :
    (Value.map entries).replaceAt (name :: path) new =
      .map (Table.insert entries name (old.replaceAt path new)) := by
  rw [replaceAt, h]

theorem reach?_cons_eq_some_iff {name : Value} {path : List Value} {v w : Value} :
    v.reach? (name :: path) = some w ↔
      ∃ entries part, v = .map entries ∧ Table.find? entries name = some part ∧
        part.reach? path = some w := by
  cases v with
  | map entries => simp [reach?, Option.bind_eq_some_iff]
  | _ => simp [reach?]

theorem reach?_append (path others : List Value) (v : Value) :
    v.reach? (path ++ others) = (v.reach? path).bind (reach? others) := by
  induction path generalizing v with
  | nil => rfl
  | cons name path ih =>
    cases v with
    | map entries =>
      rw [List.cons_append, reach?, reach?, Option.bind_assoc]
      exact congrArg _ (funext ih)
    | _ => rfl

/-- Replacing at the end of two paths is replacing within what the first of them leads to. -/
theorem replaceAt_append {path : List Value} {v part : Value} (h : v.reach? path = some part)
    (others : List Value) (new : Value) :
    v.replaceAt (path ++ others) new = v.replaceAt path (part.replaceAt others new) := by
  induction path generalizing v with
  | nil =>
    cases h
    rw [List.nil_append, replaceAt_nil]
  | cons name path ih =>
    obtain ⟨entries, old, rfl, hfound, hrest⟩ := reach?_cons_eq_some_iff.mp h
    rw [List.cons_append, replaceAt_cons hfound, replaceAt_cons hfound, ih hrest]

/-! ## Conditions on the part at a path -/

/-- Whether a condition on values, once it holds, is a condition on the part at a path. -/
def Hangs (p : Value → Prop) (path : List Value) (q : Value → Prop) : Prop :=
  ∀ v part, p v → v.reach? path = some part →
    q part ∧ ∀ new, p (v.replaceAt path new) ↔ q new

theorem Hangs.of_key {p q : Value → Prop} {name : Value}
    (h : ∀ entries old, p (.map entries) → Table.find? entries name = some old →
      q old ∧ ∀ new, p (.map (Table.insert entries name new)) ↔ q new) : Hangs p [name] q := by
  intro v part hv hpart
  obtain ⟨entries, old, rfl, hfound, hold⟩ := reach?_cons_eq_some_iff.mp hpart
  cases hold
  obtain ⟨hq, hiff⟩ := h entries part hv hfound
  refine ⟨hq, fun new ↦ ?_⟩
  rw [replaceAt_cons hfound, replaceAt_nil]
  exact hiff new

theorem Hangs.congr {p p' q q' : Value → Prop} {path : List Value} (h : Hangs p path q)
    (hp : ∀ v, p' v ↔ p v) (hq : ∀ v, q' v ↔ q v) : Hangs p' path q' := by
  cases funext fun v ↦ propext (hp v)
  cases funext fun v ↦ propext (hq v)
  exact h

theorem Hangs.trans {p q r : Value → Prop} {path others : List Value} (h : Hangs p path q)
    (h' : Hangs q others r) : Hangs p (path ++ others) r := by
  intro v part hv hpart
  rw [reach?_append] at hpart
  obtain ⟨middle, hmiddle, hrest⟩ := Option.bind_eq_some_iff.mp hpart
  obtain ⟨hq, hiff⟩ := h v middle hv hmiddle
  obtain ⟨hr, hiff'⟩ := h' middle part hq hrest
  refine ⟨hr, fun new ↦ ?_⟩
  rw [replaceAt_append hmiddle, hiff, hiff']

end Value

end EntityGraph
