import EntityGraph.Schema.ProjectSchema
import Mathlib.Logic.Basic

/-!
# What a schema accepts

A value is accepted by a schema when the check finds no violation. Each keyword is turned into the
condition it stands for, and each of the schemas that project documents are made of (a kind, a node
with its properties, a table, a payload) into the shape of the values that it accepts.

The references that may still be followed matter only at a reference itself: what is below a value
starts with all of them again. So the shapes hold for every bound.
-/

namespace EntityGraph.Schema

variable {defs : Definitions} {bound : Nat} {v : Value}

/-- Whether a value has no violation of a schema. -/
def Accepts (defs : Definitions) (bound : Nat) (s : Schema) (v : Value) : Prop :=
  check defs bound s v = []

/-! ## Keywords -/

/-- A check of one condition has a violation exactly where the condition fails. -/
theorem ite_nil_eq_nil_iff {α : Type} {c : Prop} [Decidable c] {x : α} :
    (if c then [] else [x]) = [] ↔ c := by
  by_cases h : c
  · rw [if_pos h]
    exact ⟨fun _ ↦ h, fun _ ↦ rfl⟩
  · rw [if_neg h]
    exact ⟨fun hc ↦ absurd hc (List.cons_ne_nil _ _), fun hc ↦ absurd hc h⟩

theorem checkAll_eq_nil_iff {ks : List Keyword} :
    checkAll defs bound ks v = [] ↔ ∀ k ∈ ks, checkKeyword defs bound k v = [] := by
  induction ks with
  | nil => simp [checkAll]
  | cons k ks ih => rw [checkAll, List.append_eq_nil_iff, ih, List.forall_mem_cons]

theorem accepts_all_iff {ks : List Keyword} {source : Value} :
    Accepts defs bound (.all ks source) v ↔ ∀ k ∈ ks, checkKeyword defs bound k v = [] := by
  rw [Accepts, check, checkAll_eq_nil_iff]

theorem checkKeyword_type_eq_nil_iff {names : List Text} :
    checkKeyword defs bound (.type names) v = [] ↔ names.any (hasType v) = true := by
  rw [checkKeyword]
  exact ite_nil_eq_nil_iff

theorem checkKeyword_required_eq_nil_iff {keys : List Text} {entries : List (Value × Value)} :
    checkKeyword defs bound (.required keys) (.map entries) = [] ↔
      ∀ key ∈ keys, ∃ w, Value.lookup key entries = some w := by
  rw [checkKeyword]
  simp only [List.flatMap_eq_nil_iff]
  refine forall₂_congr fun key _ ↦ ?_
  cases Value.lookup key entries with
  | none => simp [here]
  | some w => simp

theorem underKey_eq_nil_iff {key : Value} {s : Schema} {vs : List Violation} :
    underKey key s vs = [] ↔ vs = [] := by
  have hunder : under key vs = [] ↔ vs = [] := by
    rw [under]
    by_cases h : key.isNull = true
    · rw [if_pos h]
    · rw [if_neg h, List.map_eq_nil_iff]
  cases s with
  | always accepts => exact Iff.rfl
  | reference target source => exact hunder
  | all ks source => exact hunder

theorem checkMembers_eq_nil_iff {members : List (Text × Schema)}
    {entries : List (Value × Value)} :
    checkMembers defs members entries = [] ↔
      ∀ m ∈ members, ∀ w, Value.lookup m.1 entries = some w →
        Accepts defs defs.length m.2 w := by
  induction members with
  | nil => simp [checkMembers]
  | cons m members ih =>
    obtain ⟨key, s⟩ := m
    rw [checkMembers, List.append_eq_nil_iff, ih, List.forall_mem_cons]
    refine and_congr ?_ Iff.rfl
    split
    next w hw =>
      rw [underKey_eq_nil_iff]
      constructor
      · intro h w' hw'
        cases hw.symm.trans hw'
        exact h
      · intro h
        exact h w hw
    next hnone =>
      refine ⟨fun _ w hw ↦ ?_, fun _ ↦ rfl⟩
      rw [hnone] at hw
      cases hw

theorem checkOthers_eq_nil_iff {s : Schema} {entries : List (Value × Value)} :
    checkOthers defs [] s entries = [] ↔ ∀ e ∈ entries, Accepts defs defs.length s e.2 := by
  induction entries with
  | nil => simp [checkOthers]
  | cons e entries ih =>
    obtain ⟨key, w⟩ := e
    rw [checkOthers, List.append_eq_nil_iff, ih, List.forall_mem_cons, List.any_nil,
      if_neg Bool.false_ne_true, underKey_eq_nil_iff]
    exact Iff.rfl

/-- A schema that looks into values is asked about every entry that is not declared. -/
theorem checkKeyword_others_eq_nil_iff {s : Schema} {entries : List (Value × Value)}
    (hs : ∀ accepts, s ≠ .always accepts) :
    checkKeyword defs bound (.others [] s) (.map entries) = [] ↔
      ∀ e ∈ entries, Accepts defs defs.length s e.2 := by
  rw [← checkOthers_eq_nil_iff]
  cases s with
  | always accepts => exact absurd rfl (hs accepts)
  | reference target source => simp only [checkKeyword]
  | all ks source => simp only [checkKeyword]

theorem checkEach_eq_map {ss : List Schema} :
    checkEach defs bound ss v = ss.map fun s ↦ check defs bound s v := by
  induction ss with
  | nil => rw [checkEach, List.map_nil]
  | cons s ss ih => rw [checkEach, ih, List.map_cons]

theorem checkKeyword_allOf_eq_nil_iff {branches : List Schema} :
    checkKeyword defs bound (.allOf branches) v = [] ↔
      ∀ s ∈ branches, Accepts defs bound s v := by
  rw [checkKeyword, checkEach_eq_map, List.flatten_eq_nil_iff, List.forall_mem_map]
  exact Iff.rfl

/-! ## Reading the schemas of project documents -/

attribute [simp] ofValue keywordsOf membersOf branchOf textsOf

theorem texts_map_str (ss : List String) :
    texts (ss.map fun (s : String) ↦ .str s) = ss.map Text.ofString := by
  induction ss with
  | nil => rfl
  | cons s ss ih => rw [List.map_cons, List.map_cons, ← ih]; rfl

theorem membersOf_mapping (ps : List (String × Value)) :
    membersOf (ps.map fun e ↦ (.str e.1, e.2)) = ps.map fun e ↦ ((e.1 : Text), ofValue e.2) := by
  induction ps with
  | nil => rfl
  | cons p ps ih => rw [List.map_cons, List.map_cons, ← ih, membersOf]

theorem ofValue_definition (name : String) : ofValue (definition name) =
    .reference ("#/definitions/" ++ name) (definition name) := by
  simp [definition, mapping, Value.lookup]

theorem ofValue_ofType (name : String) :
    ofValue (ofType name) = .all [.type [name]] (ofType name) := by
  simp [ofType, mapping, Value.lookup]

theorem ofValue_enum (values : List Value) : ofValue (mapping [("enum", .seq values)]) =
    .all [.oneOfValues values] (mapping [("enum", .seq values)]) := by
  simp [mapping, Value.lookup]

theorem ofValue_const (value : Value) : ofValue (mapping [("const", value)]) =
    .all [.constant value] (mapping [("const", value)]) := by
  simp [mapping, Value.lookup]

theorem ofValue_tableOf (name : String) : ofValue (tableOf name) =
    .all [.type ["object"], .others [] (ofValue (definition name))] (tableOf name) := by
  simp [tableOf, mapping, Value.lookup, declaredNames]

theorem ofValue_keys (keys : List String) (ps : List (String × Value)) :
    ofValue (mapping [("required", textList keys), ("properties", mapping ps)]) =
      .all [.required (keys.map Text.ofString),
          .properties (ps.map fun e ↦ ((e.1 : Text), ofValue e.2))]
        (mapping [("required", textList keys), ("properties", mapping ps)]) := by
  simp [mapping, Value.lookup, textList, ← texts_map_str, ← membersOf_mapping]

theorem ofValue_properties (ps : List (String × Value)) :
    ofValue (mapping [("type", .str "object"), ("properties", mapping ps)]) =
      .all [.type ["object"], .properties (ps.map fun e ↦ ((e.1 : Text), ofValue e.2))]
        (mapping [("type", .str "object"), ("properties", mapping ps)]) := by
  simp [mapping, Value.lookup, ← membersOf_mapping]

theorem ofValue_node (keys : List String) (ps : List (String × Value)) :
    ofValue (node keys ps) =
      .all [.type ["object"], .required (keys.map Text.ofString),
        .properties (ps.map fun e ↦ ((e.1 : Text), ofValue e.2))] (node keys ps) := by
  simp [node, mapping, Value.lookup, textList, ← texts_map_str, ← membersOf_mapping]

theorem ofValue_payload (tag key : String) (schema : Value) :
    ofValue (payload tag key schema) =
      .all [.conditional
        (ofValue (mapping [("required", textList ["type"]),
          ("properties", mapping [("type", mapping [("const", .str tag)])])]))
        (some (ofValue (mapping [("required", textList [key]),
          ("properties", mapping [(key, schema)])]))) none] (payload tag key schema) := by
  simp [payload, mapping, Value.lookup]

/-! ## Kinds and listed values -/

theorem hasType_object_iff : hasType v "object" = true ↔ ∃ entries, v = .map entries := by
  cases v <;> simp [hasType]

theorem hasType_boolean_iff : hasType v "boolean" = true ↔ ∃ b, v = .bool b := by
  cases v <;> simp [hasType]

theorem hasType_string_iff : hasType v "string" = true ↔ ∃ t, v = .str t := by
  cases v <;> simp [hasType]

theorem hasType_number_iff :
    hasType v "number" = true ↔ (∃ n, v = .int n) ∨ ∃ x, v = .float x := by
  cases v <;> simp [hasType]

theorem listedSame_str_iff {t : Text} : listedSame (.str t) v = true ↔ v = .str t := by
  cases v with
  | str s =>
    have hsame : listedSame (.str t) (.str s) = (t == s) := by simp [listedSame, Value.same]
    rw [hsame, beq_iff_eq, Value.str.injEq, eq_comm]
  | _ => simp [listedSame, Value.same, Value.number?]

/-! ## The shapes of accepted values -/

theorem accepts_ofType_iff {name : String} :
    Accepts defs bound (ofValue (ofType name)) v ↔ hasType v name = true := by
  rw [ofValue_ofType, accepts_all_iff, List.forall_mem_singleton, checkKeyword_type_eq_nil_iff,
    List.any_cons, List.any_nil, Bool.or_false]

theorem accepts_string (t : Text) : Accepts defs bound (ofValue (ofType "string")) (.str t) :=
  accepts_ofType_iff.mpr (hasType_string_iff.mpr ⟨t, rfl⟩)

theorem accepts_boolean (b : Bool) : Accepts defs bound (ofValue (ofType "boolean")) (.bool b) :=
  accepts_ofType_iff.mpr (hasType_boolean_iff.mpr ⟨b, rfl⟩)

theorem accepts_enum_iff {values : List Value} :
    Accepts defs bound (ofValue (mapping [("enum", .seq values)])) v ↔
      ∃ w ∈ values, listedSame w v = true := by
  rw [ofValue_enum, accepts_all_iff, List.forall_mem_singleton, checkKeyword, ← List.any_eq_true]
  exact ite_nil_eq_nil_iff

/-- The condition of a kind `object` and of further keywords: the value is a mapping, and the
keywords are checked there. -/
theorem accepts_object_iff {ks : List Keyword} {source : Value} :
    Accepts defs bound (.all (.type ["object"] :: ks) source) v ↔
      ∃ entries, v = .map entries ∧ ∀ k ∈ ks, checkKeyword defs bound k (.map entries) = [] := by
  rw [accepts_all_iff, List.forall_mem_cons, checkKeyword_type_eq_nil_iff, List.any_cons,
    List.any_nil, Bool.or_false, hasType_object_iff]
  constructor
  · rintro ⟨⟨entries, rfl⟩, h⟩
    exact ⟨entries, rfl, h⟩
  · rintro ⟨entries, rfl, h⟩
    exact ⟨⟨entries, rfl⟩, h⟩

theorem accepts_tableOf_iff {name : String} :
    Accepts defs bound (ofValue (tableOf name)) v ↔
      ∃ entries, v = .map entries ∧
        ∀ e ∈ entries, Accepts defs defs.length (ofValue (definition name)) e.2 := by
  rw [ofValue_tableOf, accepts_object_iff]
  refine exists_congr fun entries ↦ and_congr_right fun _ ↦ ?_
  rw [List.forall_mem_singleton, ofValue_definition]
  exact checkKeyword_others_eq_nil_iff fun accepts h ↦ by cases h

/-- What required keys and declared properties ask of the entries of a mapping. -/
def HasShape (defs : Definitions) (keys : List String) (ps : List (String × Value))
    (entries : List (Value × Value)) : Prop :=
  (∀ key ∈ keys, ∃ w, Value.lookup key entries = some w) ∧
    ∀ p ∈ ps, ∀ w, Value.lookup p.1 entries = some w → Accepts defs defs.length (ofValue p.2) w

namespace HasShape

variable {keys : List String} {ps : List (String × Value)} {entries : List (Value × Value)}
  {key : String} {s : Value}

theorem field_eq {w : Value} (h : Value.lookup key entries = some w) :
    (Value.map entries).field key = w := by
  rw [Value.field, h, Option.getD_some]

/-- The value under a required key is there and accepted. -/
theorem accepts_field (h : HasShape defs keys ps entries) (hkey : key ∈ keys)
    (hp : (key, s) ∈ ps) :
    Accepts defs defs.length (ofValue s) ((Value.map entries).field key) := by
  obtain ⟨w, hw⟩ := h.1 key hkey
  rw [field_eq hw]
  exact h.2 (key, s) hp w hw

/-- The value under any other declared key is absent or accepted. -/
theorem field_null_or_accepts (h : HasShape defs keys ps entries) (hp : (key, s) ∈ ps) :
    (Value.map entries).field key = .null ∨
      Accepts defs defs.length (ofValue s) ((Value.map entries).field key) := by
  cases hw : Value.lookup key entries with
  | none =>
    left
    rw [Value.field, hw, Option.getD_none]
  | some w =>
    right
    rw [field_eq hw]
    exact h.2 (key, s) hp w hw

end HasShape

theorem hasShape_iff_keywords {keys : List String} {ps : List (String × Value)}
    {entries : List (Value × Value)} :
    HasShape defs keys ps entries ↔
      ∀ k ∈ ([.required (keys.map Text.ofString),
          .properties (ps.map fun e ↦ ((e.1 : Text), ofValue e.2))] : List Keyword),
        checkKeyword defs bound k (.map entries) = [] := by
  rw [List.forall_mem_cons, List.forall_mem_singleton, checkKeyword_required_eq_nil_iff,
    checkKeyword, checkMembers_eq_nil_iff, List.forall_mem_map, List.forall_mem_map]
  exact Iff.rfl

theorem accepts_node_iff {keys : List String} {ps : List (String × Value)} :
    Accepts defs bound (ofValue (node keys ps)) v ↔
      ∃ entries, v = .map entries ∧ HasShape defs keys ps entries := by
  rw [ofValue_node, accepts_object_iff]
  exact exists_congr fun entries ↦ and_congr_right fun _ ↦ hasShape_iff_keywords.symm

theorem accepts_properties_iff {ps : List (String × Value)} :
    Accepts defs bound
        (ofValue (mapping [("type", .str "object"), ("properties", mapping ps)])) v ↔
      ∃ entries, v = .map entries ∧ HasShape defs [] ps entries := by
  rw [ofValue_properties, accepts_object_iff]
  refine exists_congr fun entries ↦ and_congr_right fun _ ↦ ?_
  rw [List.forall_mem_singleton, checkKeyword, checkMembers_eq_nil_iff, List.forall_mem_map]
  exact ⟨fun h ↦ ⟨fun key hkey ↦ absurd hkey List.not_mem_nil, h⟩, fun h ↦ h.2⟩

/-! ## Payloads

The payload of a tag is demanded only where the tag is there. A tag that is not can always be told,
so the check goes on after it. -/

theorem accepts_keys_map_iff {keys : List String} {ps : List (String × Value)}
    {entries : List (Value × Value)} :
    Accepts defs bound
        (ofValue (mapping [("required", textList keys), ("properties", mapping ps)]))
        (.map entries) ↔ HasShape defs keys ps entries := by
  rw [ofValue_keys, accepts_all_iff]
  exact hasShape_iff_keywords.symm

theorem checkKeyword_conditional_eq_nil_iff {condition yes : Schema}
    (htold : ∀ w ∈ check defs bound condition v, w.breaksOff = false) :
    checkKeyword defs bound (.conditional condition (some yes) none) v = [] ↔
      (Accepts defs bound condition v → Accepts defs bound yes v) := by
  rw [checkKeyword]
  -- Only the first violation of the condition is looked at: whether it breaks the check off.
  cases hfound : check defs bound condition v with
  | nil => exact ⟨fun h _ ↦ h, fun h ↦ h hfound⟩
  | cons found rest =>
    have hbreak : found.breaksOff = false :=
      htold found (by rw [hfound]; exact List.mem_cons_self)
    simp only [hbreak, Bool.false_eq_true, if_false, true_iff]
    intro hacc
    rw [Accepts, hfound] at hacc
    cases hacc

/-- The condition of a payload: the tag of a type is this one. -/
theorem tagged_iff {tag : String} {entries : List (Value × Value)} :
    Accepts defs bound
        (ofValue (mapping [("required", textList ["type"]),
          ("properties", mapping [("type", mapping [("const", .str tag)])])]))
        (.map entries) ↔ Value.lookup "type" entries = some (.str tag) := by
  have hconst {w : Value} : Accepts defs defs.length (ofValue (mapping [("const", .str tag)])) w ↔
      w = .str tag := by
    rw [ofValue_const, accepts_all_iff, List.forall_mem_singleton, checkKeyword,
      ← listedSame_str_iff]
    exact ite_nil_eq_nil_iff
  rw [accepts_keys_map_iff, HasShape, List.forall_mem_singleton, List.forall_mem_singleton]
  constructor
  · rintro ⟨⟨w, hw⟩, h⟩
    rw [hw, hconst.mp (h w hw)]
  · intro h
    refine ⟨⟨_, h⟩, fun w hw ↦ hconst.mpr ?_⟩
    exact Option.some.inj (hw.symm.trans h)

theorem breaksOff_of_mem_check_tag {tag : String} {entries : List (Value × Value)} :
    ∀ w ∈ check defs bound
        (ofValue (mapping [("required", textList ["type"]),
          ("properties", mapping [("type", mapping [("const", .str tag)])])]))
        (.map entries), w.breaksOff = false := by
  intro w hw
  rw [ofValue_keys, check, checkAll, checkAll, checkAll, List.append_nil, List.mem_append] at hw
  -- A violation is either that the tag is absent or that it is another one.
  rcases hw with hw | hw
  · rw [checkKeyword] at hw
    simp only [List.map_cons, List.map_nil, List.flatMap_cons, List.flatMap_nil,
      List.append_nil] at hw
    split at hw
    · cases hw
    · rw [here, List.mem_singleton] at hw
      rw [hw]
      rfl
  · rw [checkKeyword, List.map_cons, List.map_nil, ofValue_const, checkMembers, checkMembers,
      List.append_nil] at hw
    split at hw
    next u _ =>
      rw [check, checkAll, checkAll, List.append_nil, checkKeyword] at hw
      split at hw
      · cases hw
      · simp only [underKey, under, here, Value.isNull, Bool.false_eq_true, if_false,
          List.map_cons, List.map_nil, List.mem_singleton] at hw
        rw [hw]
        rfl
    next => cases hw

theorem accepts_payload_map_iff {tag key : String} {schema : Value}
    {entries : List (Value × Value)} :
    Accepts defs bound (ofValue (payload tag key schema)) (.map entries) ↔
      (Value.lookup "type" entries = some (.str tag) →
        HasShape defs [key] [(key, schema)] entries) := by
  rw [ofValue_payload, accepts_all_iff, List.forall_mem_singleton,
    checkKeyword_conditional_eq_nil_iff breaksOff_of_mem_check_tag, tagged_iff,
    accepts_keys_map_iff]

end EntityGraph.Schema
