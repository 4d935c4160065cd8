import EntityGraph.Model.FieldType
import EntityGraph.Proofs.Schema.Acceptance

/-!
# Valid parts of project documents

What the schema of project documents says of the parts of a document, one definition after the
other. Every definition is found under the reference to it, so a part is valid exactly when it is
accepted by the schema that the definition names.
-/

namespace EntityGraph.Schema

variable {v : Value}

/-! ## Finding definitions -/

/-- A reference that stands in a schema document leads where its pointer does. -/
theorem lookup_definitionsOf {document : Value} {t : Text} (h : t ∈ referencesIn document) :
    (definitionsOf document).lookup t = some ((Reference.resolve document t).map ofValue) := by
  rw [definitionsOf]
  have hmem : t ∈ (referencesIn document).eraseDups := List.mem_eraseDups.mpr h
  -- The definitions are looked up from the front, and each stands under its own reference.
  generalize (referencesIn document).eraseDups = ts at hmem
  induction ts with
  | nil => cases hmem
  | cons u ts ih =>
    rw [List.map_cons, List.lookup_cons]
    by_cases hu : t = u
    · rw [hu, beq_self_eq_true]
    · rw [beq_false_of_ne hu]
      exact ih ((List.mem_cons.mp hmem).resolve_left hu)

theorem definition_mem_referencesIn : ∀ e ∈ projectDefinitions,
    ("#/definitions/" ++ e.1 : Text) ∈ referencesIn projectSchema := by
  decide +kernel

theorem resolve_definition : ∀ e ∈ projectDefinitions,
    Reference.resolve projectSchema ("#/definitions/" ++ e.1) = .ok e.2 := by
  simp only [projectDefinitions, List.forall_mem_cons, List.not_mem_nil, false_implies,
    implies_true, and_true]
  refine ⟨?_, ?_, ?_, ?_, ?_, ?_, ?_, ?_, ?_⟩ <;> rfl

/-! ## Validity -/

/-- The definitions of the schema of project documents. -/
def projectReferences : Definitions := definitionsOf projectSchema

/-- Whether a part of a document is valid under the definition of a name. -/
def IsValid (name : String) (v : Value) : Prop :=
  Accepts projectReferences projectReferences.length (ofValue (definition name)) v

theorem lookup_projectReferences {e : String × Value} (he : e ∈ projectDefinitions) :
    projectReferences.lookup ("#/definitions/" ++ e.1 : Text) = some (.ok (ofValue e.2)) := by
  rw [projectReferences, lookup_definitionsOf (definition_mem_referencesIn e he),
    resolve_definition e he]
  rfl

/-- A definition is checked at a value by following the reference to it once. -/
theorem check_definition {e : String × Value} (he : e ∈ projectDefinitions) :
    check projectReferences projectReferences.length (ofValue (definition e.1)) v =
      check projectReferences (projectReferences.length - 1) (ofValue e.2) v := by
  have hlookup := lookup_projectReferences he
  rw [ofValue_definition]
  cases hlen : projectReferences.length with
  | zero =>
    rw [List.length_eq_zero_iff.mp hlen] at hlookup
    cases hlookup
  | succ n =>
    rw [check]
    simp only [hlookup, Nat.add_sub_cancel]

/-- A part is valid when the schema of the definition accepts it. -/
theorem isValid_iff {e : String × Value} (he : e ∈ projectDefinitions) :
    IsValid e.1 v ↔
      Accepts projectReferences (projectReferences.length - 1) (ofValue e.2) v := by
  rw [IsValid, Accepts, Accepts, check_definition he]

/-! ## Nodes -/

/-- A definition that asks for a mapping: its required keys, and the schemas of its properties. -/
structure NodeDefinition where
  name : String
  keys : List String
  properties : List (String × Value)

def moduleDefinition : NodeDefinition :=
  ⟨"module", ["entities"], [("entities", tableOf "entity"), ("enums", tableOf "enum")]⟩

def entityDefinition : NodeDefinition :=
  ⟨"entity", ["type", "isAbstract", "fieldsLocal", "genericMap"],
    [("type", mapping [("enum", .seq (wholeNumbers 3))]), ("isAbstract", ofType "boolean"),
      ("parent", optionalPath), ("response", optionalPath),
      ("path", ofTypes ["string", "null"]),
      ("method", mapping [("enum", .seq (wholeNumbers 11 ++ [.null]))]),
      ("fieldsLocal", tableOf "field"), ("genericMap", tableOf "field")] ++ remarkProperties⟩

def fieldDefinition : NodeDefinition :=
  ⟨"field", ["type", "isOptional", "isPathParameter"],
    [("type", definition "fieldType"), ("isOptional", ofType "boolean"),
      ("isPathParameter", ofType "boolean"), ("realname", ofTypes ["string", "null"]),
      ("fixedValue", mapping [])] ++ remarkProperties⟩

def enumDefinition : NodeDefinition :=
  ⟨"enum", ["enumMap"], ("enumMap", tableOf "enumItem") :: remarkProperties⟩

def enumItemDefinition : NodeDefinition :=
  ⟨"enumItem", ["value"],
    [("value", ofType "number"), ("realname", ofTypes ["string", "null"])] ++ remarkProperties⟩

def nodeDefinitions : List NodeDefinition :=
  [moduleDefinition, entityDefinition, fieldDefinition, enumDefinition, enumItemDefinition]

theorem node_mem_projectDefinitions : ∀ d ∈ nodeDefinitions,
    (d.name, node d.keys d.properties) ∈ projectDefinitions := by
  simp [nodeDefinitions, projectDefinitions, moduleDefinition, entityDefinition, entitySchema,
    fieldDefinition, fieldSchema, enumDefinition, enumItemDefinition]

/-- A part is valid under a node when it has the required keys and the declared properties. -/
theorem isValid_node_iff (d : NodeDefinition) (hd : d ∈ nodeDefinitions) :
    IsValid d.name v ↔
      ∃ entries, v = .map entries ∧ HasShape projectReferences d.keys d.properties entries := by
  rw [isValid_iff (node_mem_projectDefinitions d hd)]
  exact accepts_node_iff

/-- A table of valid entries. -/
def IsTableOf (name : String) (v : Value) : Prop :=
  ∃ entries, v = .map entries ∧ ∀ e ∈ entries, IsValid name e.2

theorem IsTableOf.isNull_eq_false {name : String} (h : IsTableOf name v) : v.isNull = false := by
  obtain ⟨entries, rfl, -⟩ := h
  rfl

theorem accepts_table_iff {name : String} :
    Accepts projectReferences projectReferences.length (ofValue (tableOf name)) v ↔
      IsTableOf name v :=
  accepts_tableOf_iff

/-! ## Paths and types of fields -/

theorem IsValid.elementPath (h : IsValid "elementPath" v) : v.isMap = true := by
  have hmem : ("elementPath", mapping [("type", .str "object"), ("properties", mapping
      [("module", ofTypes ["string", "null"]), ("name", ofTypes ["string", "null"])])]) ∈
        projectDefinitions := by
    simp [projectDefinitions]
  obtain ⟨entries, rfl, -⟩ := accepts_properties_iff.mp ((isValid_iff hmem).mp h)
  rfl

/-- The tags that a field type may have: those of the primitives, and four with a payload. -/
def typeTags : List String :=
  Primitive.all.map Primitive.tag ++ ["TObject", "TEnum", "TList", "TUnknown"]

/-- The payloads of the tags that have one: the tag, the key and the schema. -/
def typePayloads : List (String × String × Value) :=
  [("TObject", "entity", definition "elementPath"), ("TEnum", "enu", definition "elementPath"),
    ("TList", "member", definition "fieldType"), ("TUnknown", "unknown", ofType "string")]

theorem fieldTypeSchema_mem : ("fieldType", fieldTypeSchema) ∈ projectDefinitions := by
  simp [projectDefinitions]

theorem ofValue_fieldTypeSchema : ofValue fieldTypeSchema =
    .all [.type ["object"], .required ["type"],
      .properties [("type", ofValue (mapping [("enum", textList typeTags)]))],
      .allOf (typePayloads.map fun p ↦ ofValue (payload p.1 p.2.1 p.2.2))] fieldTypeSchema := by
  rfl

/-- A type of a field is valid when its tag is known and has its payload. -/
theorem isValid_fieldType_iff :
    IsValid "fieldType" v ↔ ∃ entries, v = .map entries ∧
      (∃ tag ∈ typeTags, Value.lookup "type" entries = some (.str tag)) ∧
      ∀ p ∈ typePayloads, Value.lookup "type" entries = some (.str p.1) →
        HasShape projectReferences [p.2.1] [p.2] entries := by
  rw [isValid_iff fieldTypeSchema_mem, ofValue_fieldTypeSchema, accepts_object_iff]
  refine exists_congr fun entries ↦ and_congr_right fun _ ↦ ?_
  rw [List.forall_mem_cons, List.forall_mem_cons, List.forall_mem_singleton,
    checkKeyword_required_eq_nil_iff, checkKeyword, checkMembers_eq_nil_iff,
    checkKeyword_allOf_eq_nil_iff, List.forall_mem_map, List.forall_mem_singleton,
    List.forall_mem_singleton, ← and_assoc]
  refine and_congr ?_ (forall₂_congr fun p _ ↦ accepts_payload_map_iff)
  have htag {w : Value} : Accepts projectReferences projectReferences.length
      (ofValue (mapping [("enum", textList typeTags)])) w ↔ ∃ tag ∈ typeTags, w = .str tag := by
    simp only [textList, accepts_enum_iff, List.mem_map, exists_exists_and_eq_and,
      listedSame_str_iff]
  constructor
  · rintro ⟨⟨w, hw⟩, h⟩
    obtain ⟨tag, hmem, rfl⟩ := htag.mp (h w hw)
    exact ⟨tag, hmem, hw⟩
  · rintro ⟨tag, hmem, hw⟩
    refine ⟨⟨_, hw⟩, fun w hw' ↦ htag.mpr ⟨tag, hmem, ?_⟩⟩
    exact Option.some.inj (hw'.symm.trans hw)

/-! ## What loading looks at -/

theorem IsValid.moduleNode (h : IsValid "module" v) :
    v.isMap = true ∧ IsTableOf "entity" (v.field "entities") ∧
      (v.field "enums" = .null ∨ IsTableOf "enum" (v.field "enums")) := by
  obtain ⟨entries, rfl, hs⟩ := (isValid_node_iff moduleDefinition (by simp [nodeDefinitions])).mp h
  refine ⟨rfl, accepts_table_iff.mp (hs.accepts_field ?_ ?_), ?_⟩
  · simp [moduleDefinition]
  · simp [moduleDefinition]
  · refine (hs.field_null_or_accepts ?_).imp_right accepts_table_iff.mp
    simp [moduleDefinition]

/-- The kind and the method of a valid entity are listed numbers, but need not be whole ones. -/
theorem IsValid.entity (h : IsValid "entity" v) :
    v.isMap = true ∧
      (∃ w ∈ wholeNumbers 3, listedSame w (v.field "type") = true) ∧
      (∃ b, v.field "isAbstract" = .bool b) ∧
      (v.field "method" = .null ∨
        ∃ w ∈ wholeNumbers 11 ++ [.null], listedSame w (v.field "method") = true) ∧
      IsTableOf "field" (v.field "fieldsLocal") ∧ IsTableOf "field" (v.field "genericMap") := by
  obtain ⟨entries, rfl, hs⟩ := (isValid_node_iff entityDefinition (by simp [nodeDefinitions])).mp h
  refine ⟨rfl, accepts_enum_iff.mp (hs.accepts_field ?_ ?_),
    hasType_boolean_iff.mp (accepts_ofType_iff.mp (hs.accepts_field ?_ ?_)),
    (hs.field_null_or_accepts ?_).imp_right accepts_enum_iff.mp,
    accepts_table_iff.mp (hs.accepts_field ?_ ?_), accepts_table_iff.mp (hs.accepts_field ?_ ?_)⟩
  all_goals simp [entityDefinition]

theorem IsValid.field (h : IsValid "field" v) :
    v.isMap = true ∧ IsValid "fieldType" (v.field "type") ∧
      (∃ b, v.field "isOptional" = .bool b) ∧ ∃ b, v.field "isPathParameter" = .bool b := by
  obtain ⟨entries, rfl, hs⟩ := (isValid_node_iff fieldDefinition (by simp [nodeDefinitions])).mp h
  refine ⟨rfl, hs.accepts_field ?_ ?_,
    hasType_boolean_iff.mp (accepts_ofType_iff.mp (hs.accepts_field ?_ ?_)),
    hasType_boolean_iff.mp (accepts_ofType_iff.mp (hs.accepts_field ?_ ?_))⟩
  all_goals simp [fieldDefinition]

theorem IsValid.enumeration (h : IsValid "enum" v) :
    v.isMap = true ∧ IsTableOf "enumItem" (v.field "enumMap") := by
  obtain ⟨entries, rfl, hs⟩ := (isValid_node_iff enumDefinition (by simp [nodeDefinitions])).mp h
  refine ⟨rfl, accepts_table_iff.mp (hs.accepts_field ?_ ?_)⟩
  all_goals simp [enumDefinition]

theorem IsValid.enumItem (h : IsValid "enumItem" v) :
    v.isMap = true ∧ ((∃ n, v.field "value" = .int n) ∨ ∃ x, v.field "value" = .float x) := by
  obtain ⟨entries, rfl, hs⟩ :=
    (isValid_node_iff enumItemDefinition (by simp [nodeDefinitions])).mp h
  refine ⟨rfl, hasType_number_iff.mp (accepts_ofType_iff.mp (hs.accepts_field ?_ ?_))⟩
  all_goals simp [enumItemDefinition]

/-! ## Whole documents -/

/-- The properties of a whole document. -/
def documentProperties : List (String × Value) :=
  [("name", ofType "string"), ("version", ofType "string"), ("targetPackage", ofType "string"),
    ("modules", tableOf "module")]

theorem ofValue_projectSchema : ofValue projectSchema =
    .all [.type ["object"], .required (["modules"].map Text.ofString),
      .properties (documentProperties.map fun e ↦ ((e.1 : Text), ofValue e.2))]
      projectSchema := by
  rfl

theorem violations_projectSchema_eq_nil_iff :
    violations projectSchema v = [] ↔
      ∃ entries, v = .map entries ∧
        HasShape projectReferences ["modules"] documentProperties entries := by
  have hacc : violations projectSchema v = [] ↔
      Accepts projectReferences projectReferences.length (ofValue projectSchema) v := Iff.rfl
  rw [hacc, ofValue_projectSchema, accepts_object_iff]
  exact exists_congr fun entries ↦ and_congr_right fun _ ↦ hasShape_iff_keywords.symm

theorem modules_of_violations_eq_nil (h : violations projectSchema v = []) :
    v.isMap = true ∧ IsTableOf "module" (v.field "modules") := by
  obtain ⟨entries, rfl, hs⟩ := violations_projectSchema_eq_nil_iff.mp h
  refine ⟨rfl, accepts_table_iff.mp (hs.accepts_field ?_ ?_)⟩
  all_goals simp [documentProperties]

end EntityGraph.Schema
