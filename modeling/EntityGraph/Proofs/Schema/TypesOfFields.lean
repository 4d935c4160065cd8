import EntityGraph.Proofs.Schema.WrittenParts
import EntityGraph.Proofs.Value.Parts
import EntityGraph.Proofs.Value.Replacement

/-!
# Valid types of fields

Two things decide about the type of a field: the schema, which asks for a known tag and then for the
payload of that tag, and the loader, which goes by the tag at once. The loader takes payloads as
they are, so it reads more types than are valid. Here it is shown that this is the only difference:
a value is a valid type if a type is loaded from it whose payload has texts, or null in a path.

What is more, nothing else in a valid document depends on the type of a field. The condition that
the document is valid hangs on each of its parts: on a node through its table, and on a property
through its node.
-/

namespace EntityGraph

/-- Whether the payload within all layers of lists is made of texts: the parts of a path are texts
or null, and a generic parameter is a text. -/
structure FieldType.IsWellTyped (t : FieldType) : Prop where
  path : t.IsTextual
  parameter : ∀ a, t.core = .unknown a → a.isText = true

namespace Schema

open FieldType (load load_eq_some_iff field_eq_str_iff)
open Value (isNull_eq_false_of_isMap)

/-! ## Types -/

/-- What is read from a valid type is well typed. -/
theorem isWellTyped_of_isReadFrom {t : FieldType} {v : Value} (h : t.IsReadFrom v) :
    t.IsWellTyped := by
  refine ⟨isTextual_of_fieldType h, ?_⟩
  induction h with
  | list _ _ ih => exact ih
  | unknown _ _ =>
    intro a ha
    cases ha
    rfl
  | primitive | object | enumeration => simp [FieldType.core]

/-- A known tag is valid with the payload that belongs to it. -/
theorem isValid_fieldType_of_payload {v : Value} {tag key : String} {s : Value}
    (hp : (tag, key, s) ∈ typePayloads) (htag : v.field "type" = .str tag)
    (hnull : (v.field key).isNull = false)
    (h : Accepts projectReferences projectReferences.length (ofValue s) (v.field key)) :
    IsValid "fieldType" v := by
  have hkey : v.child? key = some (v.field key) := Value.child?_of_field hnull
  obtain ⟨entries, rfl, hlookup⟩ := field_eq_str_iff.mp htag
  have hmem : tag ∈ typeTags :=
    List.mem_append_right _ (List.mem_map_of_mem (f := fun p : String × String × Value ↦ p.1) hp)
  have htags : (typePayloads.map (·.1)).Nodup := by decide
  refine isValid_fieldType_iff.mpr ⟨entries, rfl, ⟨tag, hmem, hlookup⟩, fun p hp' htag' ↦ ?_⟩
  -- Only the payload of this one tag is asked for.
  have hname : tag = p.1 := by
    rw [hlookup] at htag'
    exact Text.ofString_inj.mp (Value.str.inj (Option.some.inj htag'))
  cases List.inj_on_of_nodup_map htags hp hp' hname
  rw [HasShape, List.forall_mem_singleton, List.forall_mem_singleton]
  refine ⟨⟨_, hkey⟩, fun w hw ↦ ?_⟩
  cases hkey.symm.trans hw
  exact h

theorem isValid_fieldType_of_primitive {v : Value} {p : Primitive}
    (htag : v.field "type" = .str p.tag) : IsValid "fieldType" v := by
  obtain ⟨entries, rfl, hlookup⟩ := field_eq_str_iff.mp htag
  have hother : p.tag ∉ typePayloads.map (·.1) := by cases p <;> decide
  refine isValid_fieldType_iff.mpr ⟨entries, rfl, ⟨p.tag, tag_mem_typeTags p, hlookup⟩, ?_⟩
  intro q hq htag'
  rw [hlookup] at htag'
  have hname : p.tag = q.1 := Text.ofString_inj.mp (Value.str.inj (Option.some.inj htag'))
  exact absurd (hname ▸ List.mem_map_of_mem hq) hother

/-- A path is valid if its parts are texts or null. -/
theorem isValid_elementPath_of_load {v : Value} {path : ElementPath}
    (h : ElementPath.load v = some path) (hpath : path.IsTextual) : IsValid "elementPath" v := by
  obtain ⟨hmap, hparts⟩ := Option.ite_none_right_eq_some.mp h
  cases hparts
  cases v with
  | map entries =>
    have hpart (key : String) (w : Value) (hw : Value.lookup key entries = some w)
        (htext : ((Value.map entries).field key).IsOptionalText) :
        Accepts projectReferences projectReferences.length
          (ofValue (ofTypes ["string", "null"])) w := by
      rw [HasShape.field_eq hw] at htext
      exact accepts_optionalText_iff.mpr htext
    have hmem : ("elementPath", mapping [("type", .str "object"), ("properties", mapping
        [("module", ofTypes ["string", "null"]), ("name", ofTypes ["string", "null"])])]) ∈
          projectDefinitions := by
      simp [projectDefinitions]
    refine (isValid_iff hmem).mpr (accepts_properties_iff.mpr ⟨entries, rfl, ?_⟩)
    refine ⟨fun key hkey ↦ absurd hkey List.not_mem_nil, ?_⟩
    rw [List.forall_mem_cons, List.forall_mem_singleton]
    exact ⟨fun w hw ↦ hpart "module" w hw hpath.1, fun w hw ↦ hpart "name" w hw hpath.2⟩
  | _ => cases hmap

/-- A value is a valid type exactly if a well-typed type is loaded from it. -/
theorem isValid_fieldType_iff_load {v : Value} :
    IsValid "fieldType" v ↔ ∃ t, (load v).value = some t ∧ t.IsWellTyped := by
  constructor
  · intro h
    obtain ⟨t, ht⟩ := exists_isReadFrom_of_isValid_fieldType h
    exact ⟨t, ht.load_eq, isWellTyped_of_isReadFrom ht⟩
  · rintro ⟨t, ht, htyped⟩
    induction t generalizing v with
    | primitive p => exact isValid_fieldType_of_primitive (load_eq_some_iff.mp ht)
    | object path =>
      have hp : ("TObject", "entity", definition "elementPath") ∈ typePayloads := by
        simp [typePayloads]
      obtain ⟨htag, hload⟩ := load_eq_some_iff.mp ht
      have hvalid := isValid_elementPath_of_load hload (htyped.path path (Or.inl rfl))
      exact isValid_fieldType_of_payload hp htag (isNull_eq_false_of_isMap hvalid.elementPath)
        hvalid
    | enumeration path =>
      have hp : ("TEnum", "enu", definition "elementPath") ∈ typePayloads := by
        simp [typePayloads]
      obtain ⟨htag, hload⟩ := load_eq_some_iff.mp ht
      have hvalid := isValid_elementPath_of_load hload (htyped.path path (Or.inr rfl))
      exact isValid_fieldType_of_payload hp htag (isNull_eq_false_of_isMap hvalid.elementPath)
        hvalid
    | list member ih =>
      have hp : ("TList", "member", definition "fieldType") ∈ typePayloads := by
        simp [typePayloads]
      obtain ⟨htag, hload⟩ := load_eq_some_iff.mp ht
      have hvalid := ih hload ⟨htyped.path, htyped.parameter⟩
      obtain ⟨_, hread⟩ := exists_isReadFrom_of_isValid_fieldType hvalid
      exact isValid_fieldType_of_payload hp htag (isNull_eq_false_of_isMap hread.isMap) hvalid
    | unknown parameter =>
      have hp : ("TUnknown", "unknown", ofType "string") ∈ typePayloads := by
        simp [typePayloads]
      obtain ⟨htag, rfl, hparameter⟩ := load_eq_some_iff.mp ht
      obtain ⟨s, hs⟩ := Value.isText_iff.mp (htyped.parameter _ rfl)
      refine isValid_fieldType_of_payload hp htag hparameter ?_
      exact accepts_ofType_iff.mpr (hasType_string_iff.mpr ⟨s, hs⟩)

/-! ## Conditions that hang on parts -/

open Value (Hangs)

section

variable {keys : List String} {ps : List (String × Value)} {key : String} {s : Value}

/-- Whether a value is a mapping with the shape of a node. -/
def IsShaped (keys : List String) (ps : List (String × Value)) (v : Value) : Prop :=
  ∃ entries, v = .map entries ∧ HasShape projectReferences keys ps entries

theorem isShaped_map_iff {entries : List (Value × Value)} :
    IsShaped keys ps (.map entries) ↔ HasShape projectReferences keys ps entries := by
  simp [IsShaped]

theorem isTableOf_map_iff {name : String} {entries : List (Value × Value)} :
    IsTableOf name (.map entries) ↔ ∀ e ∈ entries, IsValid name e.2 := by
  simp [IsTableOf]

/-- The shape of a node hangs on each of its properties that is there. -/
theorem hangs_property (hps : (ps.map (·.1)).Nodup) (hp : (key, s) ∈ ps) :
    Hangs (IsShaped keys ps) [.str key]
      (Accepts projectReferences projectReferences.length (ofValue s)) := by
  refine .of_key fun entries old hshaped hfound ↦ ?_
  obtain ⟨hrequired, hdeclared⟩ := isShaped_map_iff.mp hshaped
  have hold : Value.lookup key entries = some old := (Value.lookup_eq_find? _ _).trans hfound
  refine ⟨hdeclared _ hp old hold, fun new ↦ ?_⟩
  have hself := Value.lookup_insert_self key new entries
  rw [isShaped_map_iff]
  constructor
  · rintro ⟨-, hdeclared'⟩
    exact hdeclared' _ hp new hself
  · intro hnew
    refine ⟨fun other hother ↦ ?_, fun p hp' w hw ↦ ?_⟩
    · by_cases hkey : other = key
      · exact ⟨new, hkey ▸ hself⟩
      · rw [Value.lookup_insert_of_ne (mt Text.ofString_inj.mp hkey)]
        exact hrequired other hother
    · by_cases hkey : p.1 = key
      · cases List.inj_on_of_nodup_map hps hp hp' hkey.symm
        cases hself.symm.trans hw
        exact hnew
      · rw [Value.lookup_insert_of_ne (mt Text.ofString_inj.mp hkey)] at hw
        exact hdeclared p hp' w hw

/-- The validity of a table hangs on each of its entries. -/
theorem hangs_entry (name : String) (key : Value) :
    Hangs (IsTableOf name) [key] (IsValid name) := by
  refine .of_key fun entries old htable hfound ↦ ?_
  obtain ⟨earlier, k, later, rfl, -, hinsert⟩ := Table.exists_split_of_find? hfound
  have hentries := isTableOf_map_iff.mp htable
  rw [List.forall_mem_append, List.forall_mem_cons] at hentries
  refine ⟨hentries.2.1, fun new ↦ ?_⟩
  rw [hinsert, isTableOf_map_iff, List.forall_mem_append, List.forall_mem_cons]
  exact ⟨fun h ↦ h.2.1, fun hnew ↦ ⟨hentries.1, hnew, hentries.2.2⟩⟩

/-- What is valid as a node hangs on each entry of its tables. -/
theorem hangs_child {p : Value → Prop} {child : String} (hp : ∀ v, p v ↔ IsShaped keys ps v)
    (hps : (ps.map (·.1)).Nodup) (hchild : (key, tableOf child) ∈ ps) (name : Value) :
    Hangs p [.str key, name] (IsValid child) :=
  ((hangs_property hps hchild).congr hp fun _ ↦ accepts_table_iff.symm).trans
    (hangs_entry child name)

end

/-- The validity of a document hangs on the type of any field or binding in it. -/
theorem hangs_type {container : String} (hcontainer : container ∈ ["fieldsLocal", "genericMap"])
    (m e f : Value) :
    Hangs (fun d ↦ violations projectSchema d = [])
      [.str "modules", m, .str "entities", e, .str container, f, .str "type"]
      (IsValid "fieldType") := by
  have hnode (d : NodeDefinition) (hd : d ∈ nodeDefinitions) (v : Value) :
      IsValid d.name v ↔ IsShaped d.keys d.properties v := isValid_node_iff d hd
  have hmodule : Hangs (fun d ↦ violations projectSchema d = []) [.str "modules", m]
      (IsValid "module") :=
    hangs_child (fun _ ↦ violations_projectSchema_eq_nil_iff) (by decide)
      (by simp [documentProperties]) m
  have hentity : Hangs (IsValid "module") [.str "entities", e] (IsValid "entity") :=
    hangs_child (hnode moduleDefinition (by simp [nodeDefinitions])) (by decide)
      (by simp [moduleDefinition]) e
  have hfield : Hangs (IsValid "entity") [.str container, f] (IsValid "field") := by
    refine hangs_child (hnode entityDefinition (by simp [nodeDefinitions])) (by decide) ?_ f
    simp only [List.mem_cons, List.not_mem_nil, or_false] at hcontainer
    rcases hcontainer with rfl | rfl <;> simp [entityDefinition]
  have htype : Hangs (IsValid "field") [.str "type"] (IsValid "fieldType") :=
    (hangs_property (by decide) (by simp [fieldDefinition])).congr
      (hnode fieldDefinition (by simp [nodeDefinitions])) fun _ ↦ Iff.rfl
  exact ((hmodule.trans hentity).trans hfield).trans htype

/-- In a valid document, a value in the place of the type of a field leaves the document valid
exactly if a well-typed type is loaded from it. -/
theorem structureIssues_replaceAt_type_iff {d old : Value} {container : String} {m e f : Value}
    (hcontainer : container ∈ ["fieldsLocal", "genericMap"])
    (hvalid : structureIssues projectSchema d = .ok [])
    (hold : d.reach?
      [.str "modules", m, .str "entities", e, .str container, f, .str "type"] = some old)
    (new : Value) :
    structureIssues projectSchema (d.replaceAt
        [.str "modules", m, .str "entities", e, .str container, f, .str "type"] new) = .ok [] ↔
      ∃ t, (load new).value = some t ∧ t.IsWellTyped := by
  obtain ⟨-, hiff⟩ := hangs_type hcontainer m e f d old
    (violations_eq_nil_of_structureIssues_eq_nil hvalid) hold
  rw [← isValid_fieldType_iff_load, ← hiff]
  refine ⟨violations_eq_nil_of_structureIssues_eq_nil, fun h ↦ ?_⟩
  exact structureIssues_of_violations_eq_nil (modules_of_violations_eq_nil h).1 h

/-- A list of references that leave out the name of the entity and hold a key that no one asks for:
the document is valid as long as the name of the module is a text. -/
theorem structureIssues_replaceAt_list_of_references :
    let type : List Value := [.str "modules", .str "m", .str "entities", .str "A",
      .str "fieldsLocal", .str "f", .str "type"]
    let references (moduleName : Value) : Value := mapping [("type", .str "TList"),
      ("member", mapping [("type", .str "TObject"), ("unknown", .int 0),
        ("entity", mapping [("module", moduleName)])])]
    ("fieldsLocal" ∈ ["fieldsLocal", "genericMap"] ∧
      structureIssues projectSchema (fieldDocument (.str "f")) = .ok [] ∧
      (fieldDocument (.str "f")).reach? type = some (mapping [("type", .str "TString")])) ∧
    structureIssues projectSchema
      ((fieldDocument (.str "f")).replaceAt type (references (.str "m"))) = .ok [] ∧
    structureIssues projectSchema
      ((fieldDocument (.str "f")).replaceAt type (references (.int 1))) ≠ .ok [] := by
  intro type references
  have hcontainer : "fieldsLocal" ∈ ["fieldsLocal", "genericMap"] := List.mem_cons_self
  have hvalid := structureIssues_fieldDocument (.str "f")
  have hold : (fieldDocument (.str "f")).reach? type = some (mapping [("type", .str "TString")]) :=
    rfl
  have hiff := structureIssues_replaceAt_type_iff hcontainer hvalid hold
  have htext : (load (references (.str "m"))).value = some (.list (.object ⟨.str "m", .null⟩)) :=
    rfl
  have hnumber : (load (references (.int 1))).value = some (.list (.object ⟨.int 1, .null⟩)) := rfl
  refine ⟨⟨hcontainer, hvalid, hold⟩, (hiff _).mpr ⟨_, htext, ?_, ?_⟩, fun h ↦ ?_⟩
  · rintro path (hpath | hpath)
    · cases hpath
      exact ⟨Or.inr rfl, Or.inl rfl⟩
    · cases hpath
  · rintro parameter ⟨⟩
  · obtain ⟨t, ht, htyped⟩ := (hiff _).mp h
    cases hnumber.symm.trans ht
    rcases (htyped.path _ (Or.inl rfl)).1 with hnull | htext'
    · cases hnull
    · cases htext'

end Schema

end EntityGraph
