import EntityGraph.Proofs.Model.FieldType
import EntityGraph.Proofs.Schema.Parts
import EntityGraph.Proofs.Value.Equality

/-!
# Equality of types of fields

Types are compared in three ways: directly, as parts of larger nodes, and through the documents they
are written as. Direct comparison asks for the parts of a path in the other order, and it is the
only one to which a value that is not a number is never equal. So the three agree on types whose
payloads are proper values and numbers throughout, and these are what every type is made of that was
loaded from such a value: a loader takes payloads out of the value, at any depth of lists, and makes
none up.

Where the payloads are texts or null, types are equal only if they are the same type.
-/

namespace EntityGraph

namespace Value

/-! ## Values that are numbers throughout -/

mutual

/-- Whether nothing in a value stands for a number without being one. -/
def holdsNoNaN : Value → Bool
  | .seq items => allHoldNoNaN items
  | .pair a b => holdsNoNaN a && holdsNoNaN b
  | .map entries => entriesHoldNoNaN entries
  | .set items => allHoldNoNaN items
  | v => !v.isNaN
termination_by structural v => v

/-- The same for each of some values. -/
def allHoldNoNaN : List Value → Bool
  | [] => true
  | v :: rest => holdsNoNaN v && allHoldNoNaN rest
termination_by structural vs => vs

/-- The same for each of some keys and values. -/
def entriesHoldNoNaN : List (Value × Value) → Bool
  | [] => true
  | (key, v) :: rest => holdsNoNaN key && holdsNoNaN v && entriesHoldNoNaN rest
termination_by structural entries => entries

end

theorem entriesHoldNoNaN_iff {entries : List (Value × Value)} :
    entriesHoldNoNaN entries = true ↔
      ∀ e ∈ entries, e.1.holdsNoNaN = true ∧ e.2.holdsNoNaN = true := by
  induction entries with
  | nil => simp [entriesHoldNoNaN]
  | cons e entries ih =>
    obtain ⟨key, v⟩ := e
    rw [entriesHoldNoNaN, Bool.and_eq_true, Bool.and_eq_true, ih, List.forall_mem_cons]

theorem holdsNoNaN_field {v : Value} (h : v.holdsNoNaN = true) (key : Text) :
    (v.field key).holdsNoNaN = true := by
  refine field_of_forall (p := fun w ↦ w.holdsNoNaN = true) rfl ?_ key
  rintro entries rfl e he
  exact (entriesHoldNoNaN_iff.mp h e he).2

theorem isNaN_of_holdsNoNaN {v : Value} (h : v.holdsNoNaN = true) : v.isNaN = false := by
  cases v with
  | float x => exact (Bool.not_eq_true' _).mp h
  | _ => rfl

/-- Between such values, comparing directly is comparing as members of a container. -/
theorem equal_eq_same {v w : Value} (hv : v.holdsNoNaN = true) (hw : w.holdsNoNaN = true) :
    v.equal w = v.same w := by
  rw [equal, isNaN_of_holdsNoNaN hv, isNaN_of_holdsNoNaN hw]
  rfl

/-! ## Texts that may be left out -/

theorem IsOptionalText.isProper {v : Value} (h : v.IsOptionalText) : v.isProper = true := by
  rcases h with rfl | h
  · rfl
  · obtain ⟨t, rfl⟩ := isText_iff.mp h
    rfl

theorem IsOptionalText.holdsNoNaN {v : Value} (h : v.IsOptionalText) : v.holdsNoNaN = true := by
  rcases h with rfl | h
  · rfl
  · obtain ⟨t, rfl⟩ := isText_iff.mp h
    rfl

theorem IsOptionalText.same_iff {v w : Value} (hv : v.IsOptionalText) (hw : w.IsOptionalText) :
    v.same w = true ↔ v = w := by
  rcases hv with rfl | hv
  · rcases hw with rfl | hw
    · simp [same]
    · obtain ⟨t, rfl⟩ := isText_iff.mp hw
      simp [same, number?]
  · obtain ⟨s, rfl⟩ := isText_iff.mp hv
    rcases hw with rfl | hw
    · simp [same, number?]
    · obtain ⟨t, rfl⟩ := isText_iff.mp hw
      simp [same]

end Value

theorem Primitive.tag_inj {p q : Primitive} : (p.tag : Text) = q.tag ↔ p = q := by
  constructor
  · intro h
    have hsome : some p = some q := by rw [← ofTag?_tag p, h, ofTag?_tag]
    exact Option.some.inj hsome
  · rintro rfl
    rfl

namespace FieldType

/-! ## Payloads -/

/-- The values in a type that were taken from a document. -/
def payload : FieldType → List Value
  | .primitive _ => []
  | .object path => [path.moduleName, path.name]
  | .enumeration path => [path.moduleName, path.name]
  | .list member => member.payload
  | .unknown parameter => [parameter]

/-- How many layers of lists a type has. -/
def depth : FieldType → Nat
  | .list member => member.depth + 1
  | _ => 0

/-- What holds of a value and of all that is read under keys in it holds of every payload of the
type loaded from it. -/
theorem forall_mem_payload_of_load {p : Value → Prop} (hfield : ∀ v key, p v → p (v.field key))
    {t : FieldType} {v : Value} (hv : p v) (h : (load v).value = some t) :
    ∀ a ∈ t.payload, p a := by
  have hpath {w : Value} {path : ElementPath} (hw : p w) (hload : ElementPath.load w = some path) :
      ∀ a ∈ [path.moduleName, path.name], p a := by
    obtain ⟨-, hparts⟩ := Option.ite_none_right_eq_some.mp hload
    cases hparts
    rw [List.forall_mem_cons, List.forall_mem_singleton]
    exact ⟨hfield w "module" hw, hfield w "name" hw⟩
  induction t generalizing v with
  | primitive q => exact fun a ha ↦ absurd ha List.not_mem_nil
  | object path => exact hpath (hfield v "entity" hv) (isDescribedBy_of_load h).2
  | enumeration path => exact hpath (hfield v "enu" hv) (isDescribedBy_of_load h).2
  | list member ih => exact ih (hfield v "member" hv) (isDescribedBy_of_load h).2
  | unknown parameter =>
    obtain ⟨-, rfl, -⟩ := isDescribedBy_of_load h
    exact List.forall_mem_singleton.mpr (hfield v "unknown" hv)

/-! ## Three comparisons -/

/-- Values that can be compared in any order and in any way. -/
def Comparable (v : Value) : Prop := v.isProper = true ∧ v.holdsNoNaN = true

theorem Comparable.equal_eq_same {v w : Value} (hv : Comparable v) (hw : Comparable w) :
    v.equal w = v.same w :=
  Value.equal_eq_same hv.2 hw.2

theorem Comparable.field {v : Value} (h : Comparable v) (key : Text) : Comparable (v.field key) :=
  ⟨Value.isProper_field h.1 key, Value.holdsNoNaN_field h.2 key⟩

theorem equals_path_eq_same {p q : ElementPath}
    (hp : ∀ a ∈ [p.moduleName, p.name], Comparable a)
    (hq : ∀ a ∈ [q.moduleName, q.name], Comparable a) : p.equals q = p.same q := by
  rw [List.forall_mem_cons, List.forall_mem_singleton] at hp hq
  rw [ElementPath.equals, ElementPath.same, hq.1.equal_eq_same hp.1, hq.2.equal_eq_same hp.2,
    Value.same_comm_of_isProper hq.1.1 hp.1.1, Value.same_comm_of_isProper hq.2.1 hp.2.1]

/-- Types with such payloads are the same type as parts of larger nodes if they are directly. -/
theorem equals_eq_same {t u : FieldType} (ht : ∀ a ∈ t.payload, Comparable a)
    (hu : ∀ a ∈ u.payload, Comparable a) : t.equals u = t.same u := by
  induction t generalizing u with
  | primitive p => cases u <;> rfl
  | object p =>
    cases u with
    | object q => exact equals_path_eq_same ht hu
    | _ => rfl
  | enumeration p =>
    cases u with
    | enumeration q => exact equals_path_eq_same ht hu
    | _ => rfl
  | list member ih =>
    cases u with
    | list other => exact ih ht hu
    | _ => rfl
  | unknown a =>
    cases u with
    | unknown b =>
      exact (List.forall_mem_singleton.mp ht).equal_eq_same (List.forall_mem_singleton.mp hu)
    | _ => rfl

/-! ## Documents -/

theorem same_toDocument_path (p q : ElementPath) :
    p.toDocument.same q.toDocument = p.same q := by
  simp [ElementPath.toDocument, ElementPath.same, Value.same, Value.entriesIn]

theorem same_tags (s t : Text) :
    (Value.map [(.str "type", .str s)]).same (.map [(.str "type", .str t)]) = (s == t) := by
  simp [Value.same, Value.entriesIn]

/-- Two documents with one tag, each with a payload under the same key. -/
theorem same_payloads {key : Text} (hkey : Text.ofString "type" ≠ key) (tag : Text) (v w : Value) :
    (Value.map [(.str "type", .str tag), (.str key, v)]).same
      (.map [(.str "type", .str tag), (.str key, w)]) = v.same w := by
  simp [Value.same, Value.entriesIn, hkey.symm]

/-- The documents of two types are the same if the types are. -/
theorem same_toDocument (t u : FieldType) : t.toDocument.same u.toDocument = t.same u := by
  induction t generalizing u with
  | primitive p =>
    cases u with
    | primitive q =>
      rw [toDocument, toDocument, same, same_tags]
      exact Bool.eq_iff_iff.mpr (by rw [beq_iff_eq, beq_iff_eq, Primitive.tag_inj])
    | _ => simp [toDocument, same, Value.same]
  | object p =>
    cases u with
    | object q =>
      rw [toDocument, toDocument, same, same_payloads (by decide), same_toDocument_path]
    | _ => simp [toDocument, same, Value.same, Value.entriesIn]
  | enumeration p =>
    cases u with
    | enumeration q =>
      rw [toDocument, toDocument, same, same_payloads (by decide), same_toDocument_path]
    | _ => simp [toDocument, same, Value.same, Value.entriesIn]
  | list member ih =>
    cases u with
    | list other => rw [toDocument, toDocument, same, same_payloads (by decide), ih]
    | _ => simp [toDocument, same, Value.same, Value.entriesIn]
  | unknown a =>
    cases u with
    | unknown b => rw [toDocument, toDocument, same, same_payloads (by decide)]
    | _ => simp [toDocument, same, Value.same, Value.entriesIn]

theorem equal_toDocument (t u : FieldType) : t.toDocument.equal u.toDocument = t.same u := by
  have hnumber (x : FieldType) : x.toDocument.isNaN = false := by cases x <;> rfl
  rw [Value.equal, hnumber, hnumber, same_toDocument]
  rfl

/-! ## Types that are equal -/

/-- Equal types have equally many layers of lists around types with one tag. -/
theorem eq_of_equals {t u : FieldType} (h : t.equals u = true) :
    t.tag = u.tag ∧ t.depth = u.depth ∧ t.core.tag = u.core.tag := by
  induction t generalizing u with
  | primitive p =>
    cases u with
    | primitive q =>
      cases beq_iff_eq.mp h
      exact ⟨rfl, rfl, rfl⟩
    | _ => cases h
  | list member ih =>
    cases u with
    | list other =>
      obtain ⟨-, hdepth, hcore⟩ := ih h
      exact ⟨rfl, congrArg (· + 1) hdepth, hcore⟩
    | _ => cases h
  | object p =>
    cases u with
    | object q => exact ⟨rfl, rfl, rfl⟩
    | _ => cases h
  | enumeration p =>
    cases u with
    | enumeration q => exact ⟨rfl, rfl, rfl⟩
    | _ => cases h
  | unknown a =>
    cases u with
    | unknown b => exact ⟨rfl, rfl, rfl⟩
    | _ => cases h

/-- Whether the payloads of a type are texts or null. -/
def HasTextPayload (t : FieldType) : Prop := ∀ a ∈ t.payload, a.IsOptionalText

theorem HasTextPayload.comparable {t : FieldType} (h : t.HasTextPayload) :
    ∀ a ∈ t.payload, Comparable a :=
  fun a ha ↦ ⟨(h a ha).isProper, (h a ha).holdsNoNaN⟩

theorem same_path_iff {p q : ElementPath}
    (hp : ∀ a ∈ [p.moduleName, p.name], a.IsOptionalText)
    (hq : ∀ a ∈ [q.moduleName, q.name], a.IsOptionalText) : p.same q = true ↔ p = q := by
  rw [List.forall_mem_cons, List.forall_mem_singleton] at hp hq
  rw [ElementPath.same, Bool.and_eq_true, hp.1.same_iff hq.1, hp.2.same_iff hq.2,
    ElementPath.mk.injEq]

theorem same_iff_eq {t u : FieldType} (ht : t.HasTextPayload) (hu : u.HasTextPayload) :
    t.same u = true ↔ t = u := by
  induction t generalizing u with
  | primitive p =>
    cases u with
    | primitive q => rw [same, beq_iff_eq, primitive.injEq]
    | _ => simp [same]
  | object p =>
    cases u with
    | object q => rw [same, same_path_iff ht hu, object.injEq]
    | _ => simp [same]
  | enumeration p =>
    cases u with
    | enumeration q => rw [same, same_path_iff ht hu, enumeration.injEq]
    | _ => simp [same]
  | list member ih =>
    cases u with
    | list other =>
      have hother : other.HasTextPayload := hu
      rw [same, ih ht hother, list.injEq]
    | _ => simp [same]
  | unknown a =>
    cases u with
    | unknown b =>
      have ha : a.IsOptionalText := List.forall_mem_singleton.mp ht
      rw [same, ha.same_iff (List.forall_mem_singleton.mp hu), unknown.injEq]
    | _ => simp [same]

/-- With payloads that are texts or null, types are equal only to themselves. -/
theorem equals_iff_eq {t u : FieldType} (ht : t.HasTextPayload) (hu : u.HasTextPayload) :
    t.equals u = true ↔ t = u := by
  rw [equals_eq_same ht.comparable hu.comparable, same_iff_eq ht hu]

theorem equivalence_equals :
    Equivalence fun t u : { t : FieldType // t.HasTextPayload } ↦ t.1.equals u.1 = true := by
  have hiff (t u : { t : FieldType // t.HasTextPayload }) : t.1.equals u.1 = true ↔ t = u := by
    rw [equals_iff_eq t.2 u.2, Subtype.ext_iff]
  constructor
  · exact fun t ↦ (hiff t t).mpr rfl
  · exact fun {t u} h ↦ (hiff u t).mpr ((hiff t u).mp h).symm
  · exact fun {t u x} h h' ↦ (hiff t x).mpr (((hiff t u).mp h).trans ((hiff u x).mp h'))

/-- Types that were loaded are equal, directly, exactly if they are the same as parts of larger
nodes, and exactly if their documents are equal. Where payloads are texts or null this is an
equivalence, and it never holds between types with different tags or at different depths of
lists. -/
theorem comparisons_agree {v w : Value} {t u : FieldType} (hv : v.isProper = true)
    (hw : w.isProper = true) (hvnumbers : v.holdsNoNaN = true) (hwnumbers : w.holdsNoNaN = true)
    (ht : (load v).value = some t) (hu : (load w).value = some u) :
    ((TypeOperand.typed t).equals (some (.typed u)) = .ok (t.same u) ∧
      t.same u = t.toDocument.equal u.toDocument) ∧
    (Equivalence fun x y : { x : FieldType // x.HasTextPayload } ↦ x.1.equals y.1 = true) ∧
    ∀ x y : FieldType, x.tag ≠ y.tag ∨ x.depth ≠ y.depth ∨ x.core.tag ≠ y.core.tag →
      x.equals y = false := by
  have hfield (a : Value) (key : Text) (ha : Comparable a) : Comparable (a.field key) :=
    ha.field key
  have hboth : t.equals u = t.same u :=
    equals_eq_same (forall_mem_payload_of_load hfield ⟨hv, hvnumbers⟩ ht)
      (forall_mem_payload_of_load hfield ⟨hw, hwnumbers⟩ hu)
  refine ⟨⟨?_, (equal_toDocument t u).symm⟩, equivalence_equals, fun x y h ↦ ?_⟩
  · rw [TypeOperand.equals, hboth]
  · refine Bool.eq_false_iff.mpr fun hequal ↦ ?_
    obtain ⟨htag, hdepth, hcore⟩ := eq_of_equals hequal
    rcases h with h | h | h
    · exact h htag
    · exact h hdepth
    · exact h hcore

/-- A list of references, and one in which the keys of every mapping stand in another order, also
those of the mapping that is taken for a name. -/
theorem comparisons_agree_reordered_list :
    let a : Value := .map [(.str "x", .null), (.str "y", .str "s")]
    let b : Value := .map [(.str "y", .str "s"), (.str "x", .null)]
    let v : Value := .map [(.str "type", .str "TList"), (.str "member",
      .map [(.str "type", .str "TObject"), (.str "entity",
        .map [(.str "module", .str "m"), (.str "name", a)])])]
    let w : Value := .map [(.str "member",
      .map [(.str "entity", .map [(.str "name", b), (.str "module", .str "m")]),
        (.str "type", .str "TObject")]), (.str "type", .str "TList")]
    let t : FieldType := .list (.object ⟨.str "m", a⟩)
    let u : FieldType := .list (.object ⟨.str "m", b⟩)
    (v.isProper = true ∧ w.isProper = true ∧ v.holdsNoNaN = true ∧ w.holdsNoNaN = true ∧
      (load v).value = some t ∧ (load w).value = some u) ∧
    (TypeOperand.typed t).equals (some (.typed u)) = .ok true ∧
    t.toDocument.equal u.toDocument = true := by
  intro a b v w t u
  have ht : (load v).value = some t := rfl
  have hu : (load w).value = some u := rfl
  have hv : v.isProper = true := by decide
  have hw : w.isProper = true := by decide
  have hsame : t.same u = true := by decide
  obtain ⟨⟨hequals, hdocuments⟩, -⟩ := comparisons_agree hv hw (by decide) (by decide) ht hu
  rw [hsame] at hequals hdocuments
  exact ⟨⟨hv, hw, by decide, by decide, ht, hu⟩, hequals, hdocuments.symm⟩

end FieldType

end EntityGraph
