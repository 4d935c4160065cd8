import EntityGraph.Proofs.Model.Entries

/-!
# Keys of mappings

A mapping has one value under each key. The entries of a mapping are a list, which does not say so;
`keysDiffer` says it of a value and of the mappings under it. Keys are told apart as members of a
container are, and among values that can be keys this comparison is reflexive and symmetric.

Two further conditions go through a document in the same way: that its keys have texts, and that
they are texts.
-/

namespace EntityGraph

/-- The entries of a mapping. -/
def Dropped.entriesOf : Value → List (Value × Value)
  | .map entries => entries
  | _ => []

theorem Number.same_self (a : Number) : a.same a = true := by
  rw [Number.same, beq_self_eq_true, Bool.or_true]

theorem Number.same_comm (a b : Number) : a.same b = b.same a := by
  have heq : a.eq b = b.eq a := by
    rw [Number.eq, Number.eq]
    cases a.extent? with
    | none => cases b.extent? <;> rfl
    | some x =>
      cases b.extent? with
      | none => rfl
      | some y => exact Bool.beq_comm
  rw [Number.same, Number.same, heq, Bool.beq_comm (a := a)]

namespace Value

/-! ## Keys that are the same -/

theorem same_self {v : Value} (h : v.isKey = true) : v.same v = true := by
  cases v with
  | pair a b =>
    rw [isKey, Bool.and_eq_true] at h
    rw [same, same_self h.1, same_self h.2]
    rfl
  | bool b => simp [same, number?, Number.same_self]
  | int n => simp [same, number?, Number.same_self]
  | float x => simp [same, number?, Number.same_self]
  | moment t => simp [same, Moment.same]
  | null => simp [same]
  | str s => simp [same]
  | bytes bs => simp [same]
  | date d => simp [same]
  | _ => cases h

theorem same_comm {v w : Value} (h : v.isKey = true) : v.same w = w.same v := by
  cases v with
  | pair a b =>
    rw [isKey, Bool.and_eq_true] at h
    cases w with
    | pair c d => rw [same, same, same_comm h.1, same_comm h.2]
    | _ => simp [same, number?]
  | seq items => cases h
  | map entries => cases h
  | set items => cases h
  | _ => cases w <;> simp [same, number?, Number.same_comm, Moment.same, Bool.beq_comm]

/-! ## Texts -/

/-- Whether a value is a text. -/
def isText : Value → Bool
  | .str _ => true
  | _ => false

theorem isText_iff {v : Value} : v.isText = true ↔ ∃ t, v = .str t := by
  cases v <;> simp [isText]

/-- The least number that has too many digits. -/
theorem isWritable_int_tenTo : (Value.int (tenTo Integer.digitLimit)).isWritable = false := by
  rw [isWritable, Integer.isWritable, Int.natAbs_natCast]
  exact decide_eq_false (Nat.lt_irrefl _)

theorem isWritable_of_isText {v : Value} (h : v.isText = true) : v.isWritable = true := by
  obtain ⟨t, rfl⟩ := isText_iff.mp h
  rfl

theorem isKey_of_isText {v : Value} (h : v.isText = true) : v.isKey = true := by
  obtain ⟨t, rfl⟩ := isText_iff.mp h
  rfl

/-! ## Conditions on all keys -/

mutual

/-- Whether every key of a mapping, and of the mappings under it, has a text. -/
def keysWritable : Value → Bool
  | .map entries => entryKeysWritable entries
  | _ => true
termination_by structural v => v

/-- Whether every key of some entries, and of the mappings in their values, has a text. -/
def entryKeysWritable : List (Value × Value) → Bool
  | [] => true
  | (key, v) :: rest => isWritable key && keysWritable v && entryKeysWritable rest
termination_by structural entries => entries

end

mutual

/-- Whether every key of a mapping, and of the mappings under it, is a text. -/
def keysAreTexts : Value → Bool
  | .map entries => entryKeysAreTexts entries
  | _ => true
termination_by structural v => v

/-- Whether every key of some entries, and of the mappings in their values, is a text. -/
def entryKeysAreTexts : List (Value × Value) → Bool
  | [] => true
  | (key, v) :: rest => isText key && keysAreTexts v && entryKeysAreTexts rest
termination_by structural entries => entries

end

mutual

/-- Whether the keys of a mapping can be keys and no two of them are the same, and so for the
mappings under it. -/
def keysDiffer : Value → Bool
  | .map entries => entryKeysDiffer entries
  | _ => true
termination_by structural v => v

/-- Whether the keys of some entries can be keys and no two of them are the same, and so for the
mappings in their values. -/
def entryKeysDiffer : List (Value × Value) → Bool
  | [] => true
  | (key, v) :: rest =>
    key.isKey && !(rest.any fun e ↦ key.same e.1) && keysDiffer v && entryKeysDiffer rest
termination_by structural entries => entries

end

theorem entryKeysWritable_iff {entries : List (Value × Value)} :
    entryKeysWritable entries = true ↔
      ∀ e ∈ entries, e.1.isWritable = true ∧ e.2.keysWritable = true := by
  induction entries with
  | nil => simp [entryKeysWritable]
  | cons e entries ih =>
    obtain ⟨key, v⟩ := e
    rw [entryKeysWritable, Bool.and_eq_true, Bool.and_eq_true, ih, List.forall_mem_cons]

theorem entryKeysAreTexts_iff {entries : List (Value × Value)} :
    entryKeysAreTexts entries = true ↔
      ∀ e ∈ entries, e.1.isText = true ∧ e.2.keysAreTexts = true := by
  induction entries with
  | nil => simp [entryKeysAreTexts]
  | cons e entries ih =>
    obtain ⟨key, v⟩ := e
    rw [entryKeysAreTexts, Bool.and_eq_true, Bool.and_eq_true, ih, List.forall_mem_cons]

theorem entryKeysDiffer_iff {entries : List (Value × Value)} :
    entryKeysDiffer entries = true ↔
      entries.Pairwise (fun e f ↦ e.1.same f.1 = false) ∧
        ∀ e ∈ entries, e.1.isKey = true ∧ e.2.keysDiffer = true := by
  induction entries with
  | nil => simp [entryKeysDiffer]
  | cons e entries ih =>
    obtain ⟨key, v⟩ := e
    rw [entryKeysDiffer, Bool.and_eq_true, ih, List.pairwise_cons, List.forall_mem_cons]
    simp only [Bool.and_eq_true, Bool.not_eq_true', List.any_eq_false, Bool.not_eq_true]
    constructor
    · rintro ⟨⟨⟨hkey, hdiffer⟩, hv⟩, hrest, hentries⟩
      exact ⟨⟨hdiffer, hrest⟩, ⟨hkey, hv⟩, hentries⟩
    · rintro ⟨⟨hdiffer, hrest⟩, ⟨hkey, hv⟩, hentries⟩
      exact ⟨⟨⟨hkey, hdiffer⟩, hv⟩, hrest, hentries⟩

/-- What holds of null and of every value in a mapping holds of what is read under a key. -/
theorem field_of_forall {p : Value → Prop} (hnull : p .null) {v : Value}
    (h : ∀ entries, v = .map entries → ∀ e ∈ entries, p e.2) (key : Text) :
    p (v.field key) := by
  cases v with
  | map entries =>
    cases hw : lookup key entries with
    | none =>
      rw [field, hw]
      exact hnull
    | some w =>
      rw [field, hw]
      exact h entries rfl _ (mem_of_lookup hw)
  | _ => exact hnull

theorem keysWritable_field {v : Value} (h : v.keysWritable = true) (key : Text) :
    (v.field key).keysWritable = true := by
  refine field_of_forall (p := fun w ↦ w.keysWritable = true) rfl ?_ key
  rintro entries rfl e he
  exact (entryKeysWritable_iff.mp h e he).2

theorem keysAreTexts_field {v : Value} (h : v.keysAreTexts = true) (key : Text) :
    (v.field key).keysAreTexts = true := by
  refine field_of_forall (p := fun w ↦ w.keysAreTexts = true) rfl ?_ key
  rintro entries rfl e he
  exact (entryKeysAreTexts_iff.mp h e he).2

theorem keysDiffer_field {v : Value} (h : v.keysDiffer = true) (key : Text) :
    (v.field key).keysDiffer = true := by
  refine field_of_forall (p := fun w ↦ w.keysDiffer = true) rfl ?_ key
  rintro entries rfl e he
  exact ((entryKeysDiffer_iff.mp h).2 e he).2

theorem sizeOf_lt_of_mem {entries : List (Value × Value)} {e : Value × Value} (h : e ∈ entries) :
    sizeOf e.2 < sizeOf (Value.map entries) := by
  have hentry := List.sizeOf_lt_of_mem h
  obtain ⟨key, v⟩ := e
  simp only [Prod.mk.sizeOf_spec] at hentry
  simp only [Value.map.sizeOf_spec]
  omega

/-- Keys that are texts have texts. -/
theorem keysWritable_of_keysAreTexts {v : Value} (h : v.keysAreTexts = true) :
    v.keysWritable = true := by
  cases v with
  | map entries =>
    refine entryKeysWritable_iff.mpr fun e he ↦ ?_
    obtain ⟨hkey, hvalue⟩ := entryKeysAreTexts_iff.mp h e he
    have hlt := sizeOf_lt_of_mem he
    exact ⟨isWritable_of_isText hkey, keysWritable_of_keysAreTexts hvalue⟩
  | _ => rfl
termination_by sizeOf v

end Value

/-- The names in a table have texts if the keys of the value do. -/
theorem writable_of_mem_entriesOf {v : Value} {e : Value × Value} (hkeys : v.keysWritable = true)
    (he : e ∈ Dropped.entriesOf v) : e.1.isWritable = true ∧ e.2.keysWritable = true := by
  cases v with
  | map entries => exact Value.entryKeysWritable_iff.mp hkeys e he
  | _ => cases he

end EntityGraph
