import EntityGraph.Proofs.Schema.ProjectDocuments
import EntityGraph.Proofs.Value.Keys

/-!
# Valid parts that loaders take as they are

Much of a document is not looked at by the loaders: labels, comments, settings, paths and what they
are made of. The schema still says what these may be. Most of them are texts or not there at all.
-/

namespace EntityGraph

/-- Whether a value is null or a text. -/
def Value.IsOptionalText (v : Value) : Prop := v = .null ∨ v.isText = true

namespace Schema

variable {defs : Definitions} {bound : Nat} {v : Value}

/-! ## Several kinds, and alternatives -/

theorem ofValue_ofTypes (names : List String) :
    ofValue (ofTypes names) = .all [.type (names.map Text.ofString)] (ofTypes names) := by
  simp [ofTypes, mapping, Value.lookup, textList, ← texts_map_str]

theorem accepts_ofTypes_iff {names : List String} :
    Accepts defs bound (ofValue (ofTypes names)) v ↔ ∃ name ∈ names, hasType v name = true := by
  rw [ofValue_ofTypes, accepts_all_iff, List.forall_mem_singleton, checkKeyword_type_eq_nil_iff,
    List.any_map, List.any_eq_true]
  exact Iff.rfl

theorem isOptionalText_of_hasType
    (h : hasType v "string" = true ∨ hasType v "null" = true) : v.IsOptionalText := by
  cases v with
  | null => exact Or.inl rfl
  | str t => exact Or.inr rfl
  | _ => simp [hasType] at h

theorem isOptionalText_of_accepts
    (h : Accepts defs bound (ofValue (ofTypes ["string", "null"])) v) : v.IsOptionalText := by
  obtain ⟨name, hname, htype⟩ := accepts_ofTypes_iff.mp h
  simp only [List.mem_cons, List.not_mem_nil, or_false] at hname
  rcases hname with rfl | rfl
  · exact isOptionalText_of_hasType (Or.inl htype)
  · exact isOptionalText_of_hasType (Or.inr htype)

/-- Alternatives without a finding have one that is met. -/
theorem exists_eq_nil_of_choose_eq_nil {branches : List (Schema × List Violation)}
    (h : choose v branches = []) : ∃ b ∈ branches, b.2 = [] := by
  induction branches with
  | nil =>
    rw [choose] at h
    cases h
  | cons b branches ih =>
    obtain ⟨s, vs⟩ := b
    cases vs with
    | nil => exact ⟨_, List.mem_cons_self, rfl⟩
    | cons found rest =>
      rw [choose] at h
      · split at h
        next => cases h
        next =>
          obtain ⟨b, hb, hnil⟩ := ih h
          exact ⟨b, List.mem_cons_of_mem _ hb, hnil⟩
      · simp

theorem exists_accepts_of_checkKeyword_oneOf {branches : List Schema}
    (h : checkKeyword defs bound (.oneOf branches) v = []) :
    ∃ s ∈ branches, Accepts defs bound s v := by
  rw [checkKeyword, checkEach_eq_map] at h
  obtain ⟨b, hb, hnil⟩ := exists_eq_nil_of_choose_eq_nil h
  obtain ⟨s, hs, hfound⟩ := List.mem_map.mp (List.of_mem_zip hb).2
  exact ⟨s, hs, hfound.trans hnil⟩

/-! ## Paths -/

theorem IsValid.coordinates (h : IsValid "elementPath" v) :
    v.isMap = true ∧ (v.field "module").IsOptionalText ∧ (v.field "name").IsOptionalText := by
  have hmem : ("elementPath", mapping [("type", .str "object"), ("properties", mapping
      [("module", ofTypes ["string", "null"]), ("name", ofTypes ["string", "null"])])]) ∈
        projectDefinitions := by
    simp [projectDefinitions]
  obtain ⟨entries, rfl, hs⟩ := accepts_properties_iff.mp ((isValid_iff hmem).mp h)
  have hpart (key : String) (hkey : (key, ofTypes ["string", "null"]) ∈
      [("module", ofTypes ["string", "null"]), ("name", ofTypes ["string", "null"])]) :
      ((Value.map entries).field key).IsOptionalText := by
    rcases hs.field_null_or_accepts hkey with hnull | hacc
    · exact Or.inl hnull
    · exact isOptionalText_of_accepts hacc
  exact ⟨rfl, hpart "module" (by simp), hpart "name" (by simp)⟩

theorem ofValue_optionalPath : ofValue optionalPath =
    .all [.oneOf [ofValue (ofType "null"), ofValue (definition "elementPath")]] optionalPath := by
  rfl

/-- A path that may be left out is null or a valid path. -/
theorem null_or_isValid_of_accepts_optionalPath
    (h : Accepts projectReferences projectReferences.length (ofValue optionalPath) v) :
    v = .null ∨ IsValid "elementPath" v := by
  rw [ofValue_optionalPath, accepts_all_iff, List.forall_mem_singleton] at h
  obtain ⟨s, hs, hacc⟩ := exists_accepts_of_checkKeyword_oneOf h
  simp only [List.mem_cons, List.not_mem_nil, or_false] at hs
  rcases hs with rfl | rfl
  · left
    have htype := accepts_ofType_iff.mp hacc
    cases v with
    | null => rfl
    | _ => simp [hasType] at htype
  · exact Or.inr hacc

/-- The parent and the response of a valid entity are valid paths, if they are there. -/
theorem IsValid.paths (h : IsValid "entity" v) :
    (v.field "parent" = .null ∨ IsValid "elementPath" (v.field "parent")) ∧
      (v.field "response" = .null ∨ IsValid "elementPath" (v.field "response")) := by
  obtain ⟨entries, rfl, hs⟩ := (isValid_node_iff entityDefinition (by simp [nodeDefinitions])).mp h
  have hpath (key : String) (hkey : (key, optionalPath) ∈ entityDefinition.properties) :
      (Value.map entries).field key = .null ∨
        IsValid "elementPath" ((Value.map entries).field key) := by
    rcases hs.field_null_or_accepts hkey with hnull | hacc
    · exact Or.inl hnull
    · exact null_or_isValid_of_accepts_optionalPath hacc
  exact ⟨hpath "parent" (by simp [entityDefinition]), hpath "response" (by simp [entityDefinition])⟩

/-! ## Remarks and labels -/

/-- The comment of a valid node is a text, and its settings are a mapping, if they are there. -/
structure HasRemarks (v : Value) : Prop where
  comment : (v.field "comment").IsOptionalText
  config : v.field "config" = .null ∨ (v.field "config").isMap = true

theorem IsValid.comment (h : IsValid "comment" v) : v.IsOptionalText := by
  have hmem : ("comment", ofTypes ["string", "null"]) ∈ projectDefinitions := by
    simp [projectDefinitions]
  exact isOptionalText_of_accepts ((isValid_iff hmem).mp h)

/-- Settings are checked for their kind, and then one by one. -/
theorem isValid_config_iff_others : IsValid "config" v ↔ (v = .null ∨ v.isMap = true) ∧
    checkKeyword projectReferences (projectReferences.length - 1)
      (.others [] (ofValue (ofType "string"))) v = [] := by
  have hmem : ("config", mapping [("type", textList ["object", "null"]),
      ("additionalProperties", ofType "string")]) ∈ projectDefinitions := by
    simp [projectDefinitions]
  have hschema : ofValue (mapping [("type", textList ["object", "null"]),
      ("additionalProperties", ofType "string")]) =
        .all [.type ["object", "null"], .others [] (ofValue (ofType "string"))]
          (mapping [("type", textList ["object", "null"]),
            ("additionalProperties", ofType "string")]) := by
    rfl
  have hkind : ["object", "null"].any (fun name ↦ hasType v name) = true ↔
      v = .null ∨ v.isMap = true := by
    cases v <;> simp [hasType, Value.isMap]
  rw [isValid_iff hmem, hschema, accepts_all_iff, List.forall_mem_cons, List.forall_mem_singleton,
    checkKeyword_type_eq_nil_iff]
  exact and_congr_left fun _ ↦ hkind

theorem IsValid.config (h : IsValid "config" v) : v = .null ∨ v.isMap = true :=
  (isValid_config_iff_others.mp h).1

theorem IsValid.remarks {d : NodeDefinition} (h : IsValid d.name v) (hd : d ∈ nodeDefinitions)
    (hremarks : ∀ p ∈ remarkProperties, p ∈ d.properties) : HasRemarks v := by
  obtain ⟨entries, rfl, hs⟩ := (isValid_node_iff d hd).mp h
  constructor
  · rcases hs.field_null_or_accepts (hremarks ("comment", definition "comment")
      (by simp [remarkProperties])) with hnull | hvalid
    · exact Or.inl hnull
    · exact IsValid.comment hvalid
  · rcases hs.field_null_or_accepts (hremarks ("config", definition "config")
      (by simp [remarkProperties])) with hnull | hvalid
    · exact Or.inl hnull
    · exact IsValid.config hvalid

/-- The labels of a valid document are texts, if they are there. -/
theorem isOptionalText_label (h : violations projectSchema v = []) :
    ∀ key ∈ ["name", "version", "targetPackage"], (v.field key).IsOptionalText := by
  obtain ⟨entries, rfl, hs⟩ := violations_projectSchema_eq_nil_iff.mp h
  intro key hkey
  have hp : (key, ofType "string") ∈ documentProperties := by
    simp only [List.mem_cons, List.not_mem_nil, or_false] at hkey
    rcases hkey with rfl | rfl | rfl <;> simp [documentProperties]
  rcases hs.field_null_or_accepts hp with hnull | hacc
  · exact Or.inl hnull
  · exact isOptionalText_of_hasType (Or.inl (accepts_ofType_iff.mp hacc))

end Schema

end EntityGraph
