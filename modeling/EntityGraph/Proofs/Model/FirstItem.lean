import EntityGraph.Proofs.Graph.Resolution

/-!
# The first item

The first item of an enumeration is one with the least number. The scan that finds it keeps a single
candidate and moves on to every entry that is not above it, so of several entries with the least
number it ends with the last. Numbers of both kinds are compared by their places on one line, which
are ordered totally; only what is not a number has no place there. So the candidate is least among
the entries passed, and no entry passed after it is, which is what carries the scan. The least
number itself does not depend on the order of the entries.

An entry may be named null, and that name is taken for none: if the scan ends with such an entry
there is no first item, although there are items.
-/

namespace EntityGraph

/-! ## The order of numbers -/

namespace Binary64.Extent

theorem le_refl (x : Extent) : x.le x = true := by
  cases x <;> simp [le]

theorem le_total (x y : Extent) : x.le y = true ∨ y.le x = true := by
  cases x <;> cases y <;> simp [le, Int.le_total]

theorem le_trans {x y z : Extent} (hxy : x.le y = true) (hyz : y.le z = true) :
    x.le z = true := by
  cases x <;> cases y <;> cases z <;> simp_all [le]
  exact Int.le_trans hxy hyz

theorem le_antisymm {x y : Extent} (hxy : x.le y = true) (hyx : y.le x = true) : x = y := by
  cases x <;> cases y <;> simp_all [le]
  exact Int.le_antisymm hxy hyx

end Binary64.Extent

namespace Number

/-- Whether a number of the binary kind is none. -/
def isNaN : Number → Bool
  | .float (.nan _) => true
  | _ => false

/-- What is a number has a place on the line. -/
theorem exists_extent? {a : Number} (h : a.isNaN = false) : ∃ x, a.extent? = some x := by
  cases a with
  | int n => exact ⟨_, rfl⟩
  | float x =>
    cases x with
    | finite negative units => exact ⟨_, rfl⟩
    | infinite negative => cases negative <;> exact ⟨_, rfl⟩
    | nan label => cases h

theorem le_iff {a b : Number} : a.le b = true ↔
    ∃ x y, a.extent? = some x ∧ b.extent? = some y ∧ x.le y = true := by
  rw [le]
  cases a.extent? <;> cases b.extent? <;> simp

theorem le_total {a b : Number} (ha : a.isNaN = false) (hb : b.isNaN = false) :
    a.le b = true ∨ b.le a = true := by
  obtain ⟨x, hx⟩ := exists_extent? ha
  obtain ⟨y, hy⟩ := exists_extent? hb
  rw [le, le, hx, hy]
  exact x.le_total y

theorem le_refl {a : Number} (ha : a.isNaN = false) : a.le a = true := (le_total ha ha).elim id id

theorem le_trans {a b c : Number} (hab : a.le b = true) (hbc : b.le c = true) :
    a.le c = true := by
  obtain ⟨x, y, hx, hy, hxy⟩ := le_iff.mp hab
  obtain ⟨y', z, hy', hz, hyz⟩ := le_iff.mp hbc
  cases hy.symm.trans hy'
  exact le_iff.mpr ⟨x, z, hx, hz, Binary64.Extent.le_trans hxy hyz⟩

/-- Numbers of which neither is above the other are equal, also if they are of different kinds. -/
theorem eq_of_le_of_le {a b : Number} (hab : a.le b = true) (hba : b.le a = true) :
    a.eq b = true := by
  obtain ⟨x, y, hx, hy, hxy⟩ := le_iff.mp hab
  obtain ⟨y', x', hy', hx', hyx⟩ := le_iff.mp hba
  cases hx.symm.trans hx'
  cases hy.symm.trans hy'
  rw [eq, hx, hy, Binary64.Extent.le_antisymm hxy hyx]
  exact beq_self_eq_true y

end Number

namespace Enumeration

/-! ## The scan -/

/-- Whether the number of an entry is not above that of any other. -/
def IsLowest (entries : Table EnumItem) (entry : Value × EnumItem) : Prop :=
  ∀ e ∈ entries, entry.2.value.le e.2.value = true

/-- Whether an entry is the last one of these. -/
def IsLastLowest (entries : Table EnumItem) (entry : Value × EnumItem) : Prop :=
  ∃ before after, entries = before ++ entry :: after ∧ IsLowest entries entry ∧
    ∀ e ∈ after, ¬ IsLowest entries e

theorem IsLastLowest.mem {entries : Table EnumItem} {entry : Value × EnumItem}
    (h : IsLastLowest entries entry) : entry ∈ entries := by
  obtain ⟨before, after, rfl, -⟩ := h
  exact List.mem_append_right _ List.mem_cons_self

section

variable {entries : Table EnumItem} {first second entry : Value × EnumItem}

/-- There is only one such entry, since of two the one in front would not be the last. -/
theorem IsLastLowest.unique {other : Value × EnumItem} (h : IsLastLowest entries entry)
    (h' : IsLastLowest entries other) : entry = other := by
  obtain ⟨before, after, rfl, hlowest, hafter⟩ := h
  obtain ⟨before', after', hplace, hlowest', hafter'⟩ := h'
  rcases List.append_eq_append_iff.mp hplace with ⟨between, -, hrest⟩ | ⟨between, -, hrest⟩
  · cases between with
    | nil => exact (List.cons.inj hrest).1
    | cons _ between =>
      obtain ⟨-, rfl⟩ := List.cons.inj hrest
      exact absurd hlowest' (hafter other (List.mem_append_right _ List.mem_cons_self))
  · cases between with
    | nil => exact (List.cons.inj hrest).1.symm
    | cons _ between =>
      obtain ⟨-, rfl⟩ := List.cons.inj hrest
      exact absurd hlowest (hafter' entry (List.mem_append_right _ List.mem_cons_self))

/-- An entry in front that is not below the next one does not matter. -/
theorem IsLastLowest.cons_of_le (h : IsLastLowest (second :: entries) entry)
    (hle : second.2.value.le first.2.value = true) :
    IsLastLowest (first :: second :: entries) entry := by
  obtain ⟨before, after, hplace, hlowest, hafter⟩ := h
  refine ⟨first :: before, after, by rw [hplace, List.cons_append], ?_, fun e he hall ↦ ?_⟩
  · exact List.forall_mem_cons.mpr ⟨Number.le_trans (hlowest _ List.mem_cons_self) hle, hlowest⟩
  · exact hafter e he (List.forall_mem_cons.mp hall).2

/-- An entry that is above the one before it does not matter either. -/
theorem IsLastLowest.insert_of_lt (h : IsLastLowest (first :: entries) entry)
    (hle : first.2.value.le second.2.value = true)
    (hlt : second.2.value.le first.2.value = false) :
    IsLastLowest (first :: second :: entries) entry := by
  obtain ⟨before, after, hplace, hlowest, hafter⟩ := h
  have hfirst := hlowest _ List.mem_cons_self
  have hall : IsLowest (first :: second :: entries) entry :=
    List.forall_mem_cons.mpr ⟨hfirst, List.forall_mem_cons.mpr
      ⟨Number.le_trans hfirst hle, (List.forall_mem_cons.mp hlowest).2⟩⟩
  have hothers {e : Value × EnumItem} (he : e ∈ after) :
      ¬ IsLowest (first :: second :: entries) e := fun h ↦
    hafter e he fun f hf ↦ h f ((List.mem_cons.mp hf).elim
      (fun heq ↦ heq ▸ List.mem_cons_self)
      fun hmem ↦ List.mem_cons_of_mem _ (List.mem_cons_of_mem _ hmem))
  cases before with
  | nil =>
    -- The entry is the first itself, and the second comes after it.
    obtain ⟨rfl, rfl⟩ := List.cons.inj hplace
    refine ⟨[], second :: entries, rfl, hall,
      List.forall_mem_cons.mpr ⟨fun h ↦ ?_, fun _ ↦ hothers⟩⟩
    rw [h _ List.mem_cons_self] at hlt
    cases hlt
  | cons b before =>
    obtain ⟨rfl, rfl⟩ := List.cons.inj hplace
    exact ⟨first :: second :: before, after, rfl, hall, fun _ ↦ hothers⟩

/-- The scan ends with the last entry that has the least number. -/
theorem isLastLowest_scan (h : ∀ e ∈ first :: entries, e.2.value.isNaN = false) :
    IsLastLowest (first :: entries) (scan first entries) := by
  induction entries generalizing first with
  | nil =>
    have hrefl : first.2.value.le first.2.value = true :=
      Number.le_refl (h first List.mem_cons_self)
    exact ⟨[], [], rfl, List.forall_mem_singleton.mpr hrefl, fun e he ↦ absurd he List.not_mem_nil⟩
  | cons second entries ih =>
    obtain ⟨hfirst, hrest⟩ := List.forall_mem_cons.mp h
    obtain ⟨hsecond, hothers⟩ := List.forall_mem_cons.mp hrest
    rw [scan]
    cases hle : second.2.value.le first.2.value with
    | true =>
      rw [if_pos rfl]
      exact (ih hrest).cons_of_le hle
    | false =>
      rw [if_neg Bool.false_ne_true]
      have hlt : first.2.value.le second.2.value = true :=
        (Number.le_total hfirst hsecond).resolve_right (by rw [hle]; exact Bool.false_ne_true)
      exact (ih (List.forall_mem_cons.mpr ⟨hfirst, hothers⟩)).insert_of_lt hlt hle

/-- Entries that are lowest in the same table, whatever its order, have equal numbers. -/
theorem eq_of_isLowest {others : Table EnumItem} {other : Value × EnumItem}
    (hperm : others.Perm entries) (h : IsLastLowest entries entry)
    (h' : IsLastLowest others other) : entry.2.value.eq other.2.value = true := by
  have hle : entry.2.value.le other.2.value = true := by
    obtain ⟨-, -, -, hlowest, -⟩ := h
    exact hlowest other (hperm.mem_iff.mp h'.mem)
  have hge : other.2.value.le entry.2.value = true := by
    obtain ⟨-, -, -, hlowest, -⟩ := h'
    exact hlowest entry (hperm.mem_iff.mpr h.mem)
  exact Number.eq_of_le_of_le hle hge

end

/-! ## The first item -/

section

variable {e : Enumeration} (hnumbers : ∀ i ∈ e.items, i.2.value.isNaN = false)

theorem firstEntry_eq_none_iff : e.firstEntry = none ↔ e.items = [] := by
  rw [firstEntry]
  cases e.items <;> simp

include hnumbers

theorem firstEntry_eq_some_iff {entry : Value × EnumItem} :
    e.firstEntry = some entry ↔ IsLastLowest e.items entry := by
  have hscan {entry : Value × EnumItem} (h : e.firstEntry = some entry) :
      IsLastLowest e.items entry := by
    rw [firstEntry] at h
    split at h
    next => cases h
    next first items hitems =>
      cases h
      rw [hitems] at hnumbers ⊢
      exact isLastLowest_scan hnumbers
  refine ⟨hscan, fun h ↦ ?_⟩
  obtain ⟨other, hother⟩ := Option.ne_none_iff_exists'.mp fun hnone ↦
    List.ne_nil_of_mem h.mem (firstEntry_eq_none_iff.mp hnone)
  rw [hother, (hscan hother).unique h]

/-- There is no name of a first item if there is no item, or if the name is null. -/
theorem firstName_eq_none_iff :
    e.firstName = none ↔ e.items = [] ∨ ∃ item, IsLastLowest e.items (.null, item) := by
  simp only [← firstEntry_eq_some_iff hnumbers]
  rw [firstName, ← firstEntry_eq_none_iff]
  cases e.firstEntry with
  | none => simp
  | some entry =>
    obtain ⟨name, item⟩ := entry
    cases name <;> simp [Value.isNull]

section

variable (hnames : Value.areNames e.items.names = true)

include hnames

/-- The name of the first item is that of the last entry with the least number, and leads to the
item of that entry. -/
theorem exists_first_of_firstName {name : Value}
    (h : e.firstName = some name) :
    ∃ item, IsLastLowest e.items (name, item) ∧ e.first = some item := by
  obtain ⟨hentry, -⟩ := Option.filter_eq_some_iff.mp h
  obtain ⟨⟨name, item⟩, hfirst, rfl⟩ := Option.map_eq_some_iff.mp hentry
  have hlowest := (firstEntry_eq_some_iff hnumbers).mp hfirst
  have hkey : name.isKey = true :=
    (Value.areNames_iff.mp hnames).2 name (List.mem_map_of_mem hlowest.mem)
  refine ⟨item, hlowest, ?_⟩
  rw [first, h, Option.bind_some]
  exact Value.find?_eq_some_of_same (e := (name, item)) hnames hkey hlowest.mem
    (Value.same_self hkey)

/-- The first item is that of the last entry with the least number. -/
theorem exists_isLastLowest_of_first {item : EnumItem} (h : e.first = some item) :
    ∃ name, IsLastLowest e.items (name, item) := by
  obtain ⟨name, hname, -⟩ := Option.bind_eq_some_iff.mp h
  obtain ⟨item', hlowest, hfirst⟩ := exists_first_of_firstName hnumbers hnames hname
  cases h.symm.trans hfirst
  exact ⟨name, hlowest⟩

/-- Where no name is null, only an enumeration without items has no first item. -/
theorem isSome_first (hnull : ∀ i ∈ e.items, i.1.isNull = false) :
    e.first.isSome = !e.items.isEmpty := by
  have hnone : e.firstName = none ↔ e.items = [] := by
    rw [firstName_eq_none_iff hnumbers, or_iff_left_iff_imp]
    rintro ⟨item, hlowest⟩
    cases hnull _ hlowest.mem
  cases hname : e.firstName with
  | none =>
    rw [first, hname, hnone.mp hname]
    rfl
  | some name =>
    obtain ⟨item, hlowest, hfirst⟩ := exists_first_of_firstName hnumbers hnames hname
    rw [hfirst, List.isEmpty_eq_false_iff.mpr (List.ne_nil_of_mem hlowest.mem)]
    rfl

end

end

/-- The first item of an enumeration that was loaded. There is none exactly if there are no items,
or if the last entry with the least number is named null; else it is that entry, found by its name.
In whatever order the items stand, the number of the first is the same, and if no name is null there
is a first item in the one order as in the other. -/
theorem first_of_load {v : Value} {e : Enumeration} (hkeys : v.keysDiffer = true)
    (h : (load v).answer = .ok (some e)) (hnumbers : ∀ i ∈ e.items, i.2.value.isNaN = false) :
    ((e.firstName = none ↔ e.items = [] ∨ ∃ item, IsLastLowest e.items (.null, item)) ∧
      (e.firstName = none → e.first = none) ∧
      ∀ name, e.firstName = some name →
        ∃ item, IsLastLowest e.items (name, item) ∧ e.first = some item) ∧
    ∀ e' : Enumeration, e'.items.Perm e.items →
      (∀ i i', e.first = some i → e'.first = some i' → i.value.eq i'.value = true) ∧
      ((∀ i ∈ e.items, i.1.isNull = false) → e'.first.isSome = e.first.isSome) := by
  have hnames : Value.areNames e.items.names = true :=
    Table.areNames_of_loadChildren (Value.keysDiffer_field hkeys _) (isReadFrom_of_load h).items
  refine ⟨⟨firstName_eq_none_iff hnumbers, fun hnone ↦ ?_, fun name ↦ ?_⟩, fun e' hperm ↦ ?_⟩
  · rw [first, hnone]
    rfl
  · exact exists_first_of_firstName hnumbers hnames
  · have hnumbers' : ∀ i ∈ e'.items, i.2.value.isNaN = false :=
      fun i hi ↦ hnumbers i (hperm.mem_iff.mp hi)
    have hnames' : Value.areNames e'.items.names = true :=
      Value.areNames_of_perm (hperm.symm.map _) hnames
    refine ⟨fun i i' hi hi' ↦ ?_, fun hnull ↦ ?_⟩
    · obtain ⟨name, hlowest⟩ := exists_isLastLowest_of_first hnumbers hnames hi
      obtain ⟨name', hlowest'⟩ := exists_isLastLowest_of_first hnumbers' hnames' hi'
      exact eq_of_isLowest hperm hlowest hlowest'
    · rw [isSome_first hnumbers hnames hnull, ← hperm.isEmpty_eq,
        isSome_first hnumbers' hnames' fun i hi ↦ hnull i (hperm.mem_iff.mp hi)]

/-- An item that is named null is not found, even if it is the only one. -/
example : ({ items := [(.null, { value := .int 0 })] } : Enumeration).first.isNone = true := by
  decide

/-- A document with one number as a whole number and with a point, below an infinite one. -/
def mixedDocument : Value :=
  .map [(.str "enumMap", .map [(.str "whole", .map [(.str "value", .int 1)]),
    (.str "pointed",
      .map [(.str "value", .float (.finite false (twoTo Binary64.unitShift)))]),
    (.str "infinite", .map [(.str "value", .float (.infinite false))])])]

/-- What is loaded from it. -/
def mixedEnumeration : Enumeration where
  items := [(.str "whole", { value := .int 1 }),
    (.str "pointed", { value := .float (.finite false (twoTo Binary64.unitShift)) }),
    (.str "infinite", { value := .float (.infinite false) })]

/-- Of the two equal numbers the later one is found. -/
theorem first_of_load_mixedDocument :
    (mixedDocument.keysDiffer = true ∧
      (load mixedDocument).answer = .ok (some mixedEnumeration) ∧
      ∀ i ∈ mixedEnumeration.items, i.2.value.isNaN = false) ∧
    mixedEnumeration.firstName = some (.str "pointed") ∧
      ∃ item, IsLastLowest mixedEnumeration.items (.str "pointed", item) ∧
        mixedEnumeration.first = some item := by
  have hkeys : mixedDocument.keysDiffer = true := by decide +kernel
  have hload : (load mixedDocument).answer = .ok (some mixedEnumeration) := rfl
  have hnumbers : ∀ i ∈ mixedEnumeration.items, i.2.value.isNaN = false := by
    simp [mixedEnumeration, Number.isNaN]
  have hequal : (Number.float (.finite false (twoTo Binary64.unitShift))).le (.int 1) = true := by
    decide +kernel
  have habove : (Number.float (.infinite false)).le
      (.float (.finite false (twoTo Binary64.unitShift))) = false := rfl
  have hname : mixedEnumeration.firstName = some (.str "pointed") := by
    simp [firstName, firstEntry, mixedEnumeration, scan, hequal, habove, Value.isNull]
  exact ⟨⟨hkeys, hload, hnumbers⟩, hname,
    (first_of_load hkeys hload hnumbers).1.2.2 _ hname⟩

end Enumeration

end EntityGraph
