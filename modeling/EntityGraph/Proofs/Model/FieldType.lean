import EntityGraph.Model.FieldType

/-!
# Loading types of fields

One equation for each tag that the type of a field can have, and what a type that loads can be. The
types are loaded by recursion on the value; the member of a list is what stands under its key.
-/

namespace EntityGraph

/-- A tag is that of the primitive it is read as. -/
theorem Primitive.eq_tag_of_ofTag? {t : Text} {p : Primitive} (h : ofTag? t = some p) :
    t = p.tag := by
  have htag := List.find?_some h
  exact (beq_iff_eq.mp htag).symm

namespace FieldType

variable {entries : List (Value × Value)}

theorem load_primitive {p : Primitive} (h : Value.lookup "type" entries = some (.str p.tag)) :
    load (.map entries) = pure (some (.primitive p)) := by
  rw [load, h]
  simp only [Primitive.ofTag?_tag]

theorem load_object (h : Value.lookup "type" entries = some (.str "TObject")) :
    load (.map entries) =
      pure ((ElementPath.load ((Value.map entries).field "entity")).map .object) := by
  have hnone : Primitive.ofTag? "TObject" = none := by decide
  rw [load, h]
  simp only [hnone, if_true]

theorem load_enumeration (h : Value.lookup "type" entries = some (.str "TEnum")) :
    load (.map entries) =
      pure ((ElementPath.load ((Value.map entries).field "enu")).map .enumeration) := by
  have hnone : Primitive.ofTag? "TEnum" = none := by decide
  rw [load, h]
  simp [hnone]

theorem load_list (h : Value.lookup "type" entries = some (.str "TList")) :
    load (.map entries) = Option.map .list <$> load ((Value.map entries).field "member") := by
  have hnone : Primitive.ofTag? "TList" = none := by decide
  rw [load, h]
  simp [hnone, loadMember_eq]

theorem load_unknown (h : Value.lookup "type" entries = some (.str "TUnknown")) :
    load (.map entries) = pure (if ((Value.map entries).field "unknown").isNull then none
      else some (.unknown ((Value.map entries).field "unknown"))) := by
  have hnone : Primitive.ofTag? "TUnknown" = none := by decide
  rw [load, h]
  simp [hnone]

theorem field_eq_str_iff {v : Value} {key t : Text} :
    v.field key = .str t ↔
      ∃ entries, v = .map entries ∧ Value.lookup key entries = some (.str t) := by
  cases v with
  | map entries => cases h : Value.lookup key entries <;> simp [Value.field, h]
  | _ => simp [Value.field]

/-- What a value has to hold for the type it describes: the tag, and what the tag asks for. -/
def IsDescribedBy (v : Value) : FieldType → Prop
  | .primitive p => v.field "type" = .str p.tag
  | .object path =>
    v.field "type" = .str "TObject" ∧ ElementPath.load (v.field "entity") = some path
  | .enumeration path =>
    v.field "type" = .str "TEnum" ∧ ElementPath.load (v.field "enu") = some path
  | .list member => v.field "type" = .str "TList" ∧ (load (v.field "member")).value = some member
  | .unknown parameter =>
    v.field "type" = .str "TUnknown" ∧ v.field "unknown" = parameter ∧ parameter.isNull = false

theorem isDescribedBy_of_load {v : Value} {t : FieldType} (h : (load v).value = some t) :
    t.IsDescribedBy v := by
  cases v with
  | map entries =>
    rw [load] at h
    split at h
    next tag htag =>
      have hfield : (Value.map entries).field "type" = .str tag :=
        field_eq_str_iff.mpr ⟨entries, rfl, htag⟩
      split at h
      next p hp =>
        cases h
        rw [IsDescribedBy, hfield, Primitive.eq_tag_of_ofTag? hp]
      next hnone =>
        by_cases hobject : tag = "TObject"
        · rw [if_pos hobject] at h
          obtain ⟨path, hpath, rfl⟩ := Option.map_eq_some_iff.mp h
          exact ⟨hobject ▸ hfield, hpath⟩
        rw [if_neg hobject] at h
        by_cases henum : tag = "TEnum"
        · rw [if_pos henum] at h
          obtain ⟨path, hpath, rfl⟩ := Option.map_eq_some_iff.mp h
          exact ⟨henum ▸ hfield, hpath⟩
        rw [if_neg henum] at h
        by_cases hlist : tag = "TList"
        · rw [if_pos hlist, loadMember_eq] at h
          obtain ⟨member, hmember, rfl⟩ := Option.map_eq_some_iff.mp h
          exact ⟨hlist ▸ hfield, hmember⟩
        rw [if_neg hlist] at h
        by_cases hunknown : tag = "TUnknown"
        · rw [if_pos hunknown] at h
          by_cases hnull : ((Value.map entries).field "unknown").isNull = true
          · simp only [hnull, if_true] at h
            cases h
          · simp only [if_neg hnull] at h
            cases h
            exact ⟨hunknown ▸ hfield, rfl, Bool.eq_false_iff.mpr hnull⟩
        · rw [if_neg hunknown] at h
          cases h
    next => cases h
  | _ => cases h

/-- A type is loaded from the values that describe it, and from no others. -/
theorem load_eq_some_iff {v : Value} {t : FieldType} :
    (load v).value = some t ↔ t.IsDescribedBy v := by
  refine ⟨isDescribedBy_of_load, fun h ↦ ?_⟩
  cases t with
  | primitive p =>
    obtain ⟨entries, rfl, htag⟩ := field_eq_str_iff.mp h
    rw [load_primitive htag]
    rfl
  | object path =>
    obtain ⟨entries, rfl, htag⟩ := field_eq_str_iff.mp h.1
    rw [load_object htag, h.2]
    rfl
  | enumeration path =>
    obtain ⟨entries, rfl, htag⟩ := field_eq_str_iff.mp h.1
    rw [load_enumeration htag, h.2]
    rfl
  | list member =>
    obtain ⟨entries, rfl, htag⟩ := field_eq_str_iff.mp h.1
    rw [load_list htag, Logged.map_value, h.2]
    rfl
  | unknown parameter =>
    obtain ⟨htag, hparameter, hnull⟩ := h
    obtain ⟨entries, rfl, hlookup⟩ := field_eq_str_iff.mp htag
    rw [load_unknown hlookup, hparameter, hnull]
    rfl

/-- What can be loaded, one case for each kind of type. -/
theorem load_cases {v : Value} {t : FieldType} (h : (load v).value = some t) :
    (∃ p, t = .primitive p) ∨ (∃ path, t = .object path) ∨ (∃ path, t = .enumeration path) ∨
      (∃ member, t = .list member ∧ (load (v.field "member")).value = some member) ∨
      ∃ parameter, t = .unknown parameter ∧ parameter.isNull = false := by
  have hdescribed := isDescribedBy_of_load h
  cases t with
  | primitive p => exact Or.inl ⟨p, rfl⟩
  | object path => exact Or.inr (Or.inl ⟨path, rfl⟩)
  | enumeration path => exact Or.inr (Or.inr (Or.inl ⟨path, rfl⟩))
  | list member => exact Or.inr (Or.inr (Or.inr (Or.inl ⟨member, rfl, hdescribed.2⟩)))
  | unknown parameter => exact Or.inr (Or.inr (Or.inr (Or.inr ⟨parameter, rfl, hdescribed.2.2⟩)))

end FieldType

end EntityGraph
