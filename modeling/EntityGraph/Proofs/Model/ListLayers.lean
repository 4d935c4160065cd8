import EntityGraph.Proofs.Model.TypeEquality

/-!
# Comparison through layers of lists

A comparison that looks through lists takes every layer off the other type and none off its own. So
it is a comparison with the core of the other type, whatever the number of layers around it, and a
type that is no list itself equals, in this way, just the types that consist of it and layers of
lists. A list has no place on the left: it is refused before anything is asked of the other side.

What carries this is that a type that is no list is the same as another one, inside some number of
layers, exactly if the other is that deep and has it as its core.
-/

namespace EntityGraph

namespace FieldType

/-! ## Layers -/

/-- A type inside so many layers of lists. -/
def inLists (t : FieldType) : Nat → FieldType
  | 0 => t
  | n + 1 => .list (t.inLists n)

@[simp] theorem inLists_zero (t : FieldType) : t.inLists 0 = t := rfl

@[simp] theorem inLists_succ (t : FieldType) (n : Nat) :
    t.inLists (n + 1) = .list (t.inLists n) := rfl

@[simp] theorem core_inLists (t : FieldType) (n : Nat) : (t.inLists n).core = t.core := by
  induction n with
  | zero => rfl
  | succ n ih => exact ih

theorem payload_core (t : FieldType) : t.core.payload = t.payload := by
  induction t with
  | list member ih => exact ih
  | _ => rfl

/-- A type that is no list, inside lists, is the same as one that is as deep and has the same
core. -/
theorem same_inLists_iff {t u : FieldType} (h : t.isList = false) (n : Nat) :
    (t.inLists n).same u = true ↔ u.depth = n ∧ t.same u.core = true := by
  induction n generalizing u with
  | zero =>
    cases u with
    | list other =>
      -- Nothing that is no list is the same as a list.
      have hlist : t.same (.list other) = false := by
        cases t with
        | list member => cases h
        | _ => rfl
      simp [depth, hlist]
    | _ => simp [depth, core]
  | succ n ih =>
    cases u with
    | list other => rw [inLists_succ, same, ih, depth, core, Nat.succ_inj]
    | _ => simp [same, depth]

/-- The layers that are needed are found in the type on the other side. -/
theorem exists_same_inLists_iff {t u : FieldType} (h : t.isList = false) :
    (∃ n, (t.inLists n).same u = true) ↔ t.same u.core = true := by
  simp only [same_inLists_iff h, exists_eq_left']

end FieldType

namespace TypeOperand

theorem equalsEvenInList_of_isList {t : FieldType} (h : t.isList = true)
    (other : Option TypeOperand) :
    (typed t).equalsEvenInList other = .error .listReceiver := by
  cases t with
  | list member => rfl
  | _ => cases h

theorem equalsEvenInList_typed {t : FieldType} (h : t.isList = false) (u : FieldType) :
    (typed t).equalsEvenInList (some (.typed u)) = (typed t).equals (some (.typed u.core)) := by
  cases t with
  | list member => cases h
  | _ => rfl

end TypeOperand

namespace FieldType

/-- The comparison through lists. A type that is no list is compared with the core of the other
type, however many layers of lists are around that one, and with payloads that are numbers
throughout it equals just itself inside any number of layers. A list is refused whatever it is to be
compared with, also if it is nothing at all. -/
theorem equalsEvenInList_inLists (t : FieldType) :
    (t.isList = false →
      (∀ (u : FieldType) (n : Nat),
        (TypeOperand.typed t).equalsEvenInList (some (.typed (u.inLists n))) =
            (TypeOperand.typed t).equals (some (.typed u.core)) ∧
          (TypeOperand.typed t).equals (some (.typed u.core)) = .ok (t.equals u.core)) ∧
      ∀ u : FieldType, (∀ a ∈ t.payload, Comparable a) → (∀ a ∈ u.payload, Comparable a) →
        ((TypeOperand.typed t).equalsEvenInList (some (.typed u)) = .ok true ↔
          ∃ n, (t.inLists n).same u = true)) ∧
    (t.isList = true →
      ∀ other, (TypeOperand.typed t).equalsEvenInList other = .error .listReceiver) := by
  refine ⟨fun h ↦ ⟨fun u n ↦ ⟨?_, rfl⟩, fun u ht hu ↦ ?_⟩, fun h other ↦ ?_⟩
  · rw [TypeOperand.equalsEvenInList_typed h, core_inLists]
  · have hboth : t.equals u.core = t.same u.core := by
      refine equals_eq_same ht ?_
      rw [payload_core]
      exact hu
    rw [TypeOperand.equalsEvenInList_typed h, TypeOperand.equals, hboth, exists_same_inLists_iff h,
      Except.ok.injEq]
  · exact TypeOperand.equalsEvenInList_of_isList h other

/-- A reference by a whole number, and a list of lists of references by the same number with a
point. -/
theorem equalsEvenInList_list_of_references :
    let t : FieldType := .object ⟨.str "m", .int 1⟩
    let u : FieldType := .object ⟨.str "m", .float (.finite false (twoTo Binary64.unitShift))⟩
    (t.isList = false ∧ (∀ a ∈ t.payload, Comparable a) ∧ (∀ a ∈ u.payload, Comparable a)) ∧
      (∃ n, (t.inLists n).same (.list (.list u)) = true) ∧
      ((FieldType.list t).isList = true ∧
        (TypeOperand.typed (.list t)).equalsEvenInList none = .error .listReceiver) := by
  intro t u
  have ht : ∀ a ∈ t.payload, Comparable a := by
    simp [t, payload, Comparable, Value.isProper, Value.holdsNoNaN, Value.isNaN]
  have hu : ∀ a ∈ u.payload, Comparable a := by
    simp [u, payload, Comparable, Value.isProper, Value.holdsNoNaN, Value.isNaN]
  have hequal : (TypeOperand.typed t).equalsEvenInList (some (.typed (.list (.list u)))) =
      .ok true := by
    rw [TypeOperand.equalsEvenInList_typed rfl, TypeOperand.equals]
    exact congrArg Except.ok (by decide +kernel)
  refine ⟨⟨rfl, ht, hu⟩, ?_, rfl, ?_⟩
  · exact (((equalsEvenInList_inLists t).1 rfl).2 (.list (.list u)) ht hu).mp hequal
  · exact (equalsEvenInList_inLists (.list t)).2 rfl none

end FieldType

end EntityGraph
