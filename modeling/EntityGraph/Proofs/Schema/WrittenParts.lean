import EntityGraph.Proofs.Check.ValidReferences
import EntityGraph.Proofs.Model.Lossless

/-!
# Valid parts that were written

What was loaded from a valid part of a document is written as a valid part. The schema asks the same
of every mapping: that the required keys are there, and that the values of the declared ones are
accepted. A writer leaves out what is null, fills in what has a default, and names settings by
texts; so it is enough to look at what it writes, one entry after the other.
-/

namespace EntityGraph.Schema

/-! ## Entries that fit -/

/-- Whether an entry has an accepted value, if its key is a declared one. -/
def Fits (ps : List (String × Value)) (e : Value × Value) : Prop :=
  ∀ p ∈ ps, e.1 = .str p.1 → Accepts projectReferences projectReferences.length (ofValue p.2) e.2

section

variable {ps : List (String × Value)} {keys : List String} {entries : List (Value × Value)}
  {key : String} {s w : Value}

/-- Entries that fit have the shape of a node if the required keys are among theirs. -/
theorem hasShape_of_fits (hkeys : ∀ key ∈ keys, ∃ w, Value.lookup key entries = some w)
    (h : ∀ e ∈ entries, Fits ps e) : HasShape projectReferences keys ps entries :=
  ⟨hkeys, fun p hp _ hw ↦ h _ (Value.mem_of_lookup hw) p hp rfl⟩

variable (hps : (ps.map (·.1)).Nodup) (hp : (key, s) ∈ ps)

include hps hp

/-- An entry fits if its value is accepted by the one schema that its key is declared with. -/
theorem fits_of_accepts
    (h : Accepts projectReferences projectReferences.length (ofValue s) w) :
    Fits ps (.str key, w) := by
  intro p hp' hkey
  have hname : key = p.1 := Text.ofString_inj.mp (Value.str.inj hkey)
  cases List.inj_on_of_nodup_map hps hp hp' hname
  exact h

theorem fits_optionalEntry
    (h : w = .null ∨ Accepts projectReferences projectReferences.length (ofValue s) w) :
    ∀ e ∈ optionalEntry key w, Fits ps e := by
  rw [optionalEntry]
  split
  next => exact fun e he ↦ absurd he List.not_mem_nil
  next hnull =>
    rw [List.forall_mem_singleton]
    refine fits_of_accepts hps hp (h.resolve_left ?_)
    rintro rfl
    exact hnull rfl

theorem fits_someEntry {o : Option Value}
    (h : ∀ w, o = some w → Accepts projectReferences projectReferences.length (ofValue s) w) :
    ∀ e ∈ someEntry key o, Fits ps e := by
  cases o with
  | none => exact fun e he ↦ absurd he List.not_mem_nil
  | some w =>
    rw [someEntry, List.forall_mem_singleton]
    exact fits_of_accepts hps hp (h w rfl)

end

/-! ## Texts and paths -/

section

variable {defs : Definitions} {bound : Nat} {v : Value}

theorem accepts_optionalText_iff :
    Accepts defs bound (ofValue (ofTypes ["string", "null"])) v ↔ v.IsOptionalText := by
  refine ⟨isOptionalText_of_accepts, fun h ↦ accepts_ofTypes_iff.mpr ?_⟩
  rcases h with rfl | h
  · exact ⟨"null", by simp, rfl⟩
  · obtain ⟨t, rfl⟩ := Value.isText_iff.mp h
    exact ⟨"string", by simp, rfl⟩

theorem isValid_elementPath_of_coordinates {path : ElementPath}
    (hmodule : path.moduleName.IsOptionalText) (hname : path.name.IsOptionalText) :
    IsValid "elementPath" path.toDocument := by
  have hmem : ("elementPath", mapping [("type", .str "object"), ("properties", mapping
      [("module", ofTypes ["string", "null"]), ("name", ofTypes ["string", "null"])])]) ∈
        projectDefinitions := by
    simp [projectDefinitions]
  refine (isValid_iff hmem).mpr (accepts_properties_iff.mpr ⟨_, rfl, hasShape_of_fits ?_ ?_⟩)
  · exact fun key hkey ↦ absurd hkey List.not_mem_nil
  · have hnames : (([("module", ofTypes ["string", "null"]),
        ("name", ofTypes ["string", "null"])] : List (String × Value)).map (·.1)).Nodup := by
      decide
    rw [List.forall_mem_cons, List.forall_mem_singleton]
    exact ⟨fits_of_accepts hnames (by simp) (accepts_optionalText_iff.mpr hmodule),
      fits_of_accepts hnames (by simp) (accepts_optionalText_iff.mpr hname)⟩

/-- A path of texts that may be left out is the second alternative, and not null as well: what the
first alternative finds can be told. -/
theorem accepts_optionalPath_of_coordinates {path : ElementPath}
    (hmodule : path.moduleName.IsOptionalText) (hname : path.name.IsOptionalText) :
    Accepts projectReferences projectReferences.length (ofValue optionalPath) path.toDocument := by
  have hwritable {v : Value} (h : v.IsOptionalText) : v.isWritable = true := by
    rcases h with rfl | h
    · rfl
    · exact Value.isWritable_of_isText h
  have hpath : path.toDocument.isWritable = true := by
    simp [ElementPath.toDocument, Value.isWritable, Value.entriesWritable, hwritable hmodule,
      hwritable hname]
  have hnull : check projectReferences projectReferences.length (ofValue (ofType "null"))
      path.toDocument = here (.wrongType path.toDocument ["null"]) := by
    simp [ofValue_ofType, check, checkAll, checkKeyword, ElementPath.toDocument, hasType]
  have hvalid : check projectReferences projectReferences.length
      (ofValue (definition "elementPath")) path.toDocument = [] :=
    isValid_elementPath_of_coordinates hmodule hname
  rw [ofValue_optionalPath, accepts_all_iff, List.forall_mem_singleton, checkKeyword,
    checkEach_eq_map, List.map_cons, List.map_cons, List.map_nil, hnull, hvalid]
  simp [here, choose, chooseLater, Violation.breaksOff, Cause.fault?, Cause.fault?.numberFault,
    hpath]

/-- A path that was loaded from a valid one has the coordinates of a valid one. -/
theorem coordinates_of_load {v : Value} {path : ElementPath} (hvalid : IsValid "elementPath" v)
    (h : ElementPath.load v = some path) :
    path.moduleName.IsOptionalText ∧ path.name.IsOptionalText := by
  obtain ⟨hmap, hcoordinates⟩ := hvalid.coordinates
  rw [ElementPath.load, if_pos hmap] at h
  cases h
  exact hcoordinates

end

/-! ## Types of fields -/

theorem tag_mem_typeTags (p : Primitive) : p.tag ∈ typeTags := by
  cases p <;> decide

/-- A type that was read from a valid one is written as a valid one, at any depth of lists. -/
theorem isValid_toDocument_fieldType {t : FieldType} {v : Value} (h : t.IsReadFrom v) :
    IsValid "fieldType" t.toDocument := by
  induction h with
  | primitive p _ =>
    refine isValid_fieldType_iff.mpr ⟨_, rfl, ⟨p.tag, tag_mem_typeTags p, rfl⟩, ?_⟩
    cases p <;> simp [typePayloads, Value.lookup, Primitive.tag]
  | object _ hvalid hload =>
    obtain ⟨hmodule, hname⟩ := coordinates_of_load hvalid hload
    have hpath := isValid_elementPath_of_coordinates hmodule hname
    refine isValid_fieldType_iff.mpr ⟨_, rfl, ⟨"TObject", by decide, rfl⟩, ?_⟩
    simpa [IsValid, typePayloads, HasShape, Value.lookup] using hpath
  | enumeration _ hvalid hload =>
    obtain ⟨hmodule, hname⟩ := coordinates_of_load hvalid hload
    have hpath := isValid_elementPath_of_coordinates hmodule hname
    refine isValid_fieldType_iff.mpr ⟨_, rfl, ⟨"TEnum", by decide, rfl⟩, ?_⟩
    simpa [IsValid, typePayloads, HasShape, Value.lookup] using hpath
  | list _ _ ih =>
    refine isValid_fieldType_iff.mpr ⟨_, rfl, ⟨"TList", by decide, rfl⟩, ?_⟩
    simpa [IsValid, typePayloads, HasShape, Value.lookup] using ih
  | @unknown _ parameter _ _ =>
    have hparameter : Accepts projectReferences projectReferences.length
        (ofValue (ofType "string")) (.str parameter) := accepts_string parameter
    refine isValid_fieldType_iff.mpr ⟨_, rfl, ⟨"TUnknown", by decide, rfl⟩, ?_⟩
    simpa [typePayloads, HasShape, Value.lookup] using hparameter

/-! ## Remarks -/

theorem isValid_comment (t : Text) : IsValid "comment" (.str t) := by
  have hmem : ("comment", ofTypes ["string", "null"]) ∈ projectDefinitions := by
    simp [projectDefinitions]
  exact (isValid_iff hmem).mpr (accepts_optionalText_iff.mpr (Or.inr rfl))

/-- Settings are valid if their values are texts. -/
theorem isValid_config_iff {entries : List (Value × Value)} :
    IsValid "config" (.map entries) ↔ ∀ e ∈ entries, e.2.isText = true := by
  have hmap : Value.map entries = .null ∨ (Value.map entries).isMap = true := Or.inr rfl
  rw [isValid_config_iff_others,
    checkKeyword_others_eq_nil_iff fun accepts h ↦ by rw [ofValue_ofType] at h; cases h]
  simp only [hmap, true_and, accepts_ofType_iff, hasType_string_iff, Value.isText_iff]

theorem forall_mem_insert {property : Value → Prop} {s : Settings} {name : Text} {v : Value}
    (hs : ∀ e ∈ s, property e.2) (hv : property v) : ∀ e ∈ s.insert name v, property e.2 := by
  induction s with
  | nil =>
    rw [Settings.insert, List.forall_mem_singleton]
    exact hv
  | cons e s ih =>
    obtain ⟨hfirst, hrest⟩ := List.forall_mem_cons.mp hs
    rw [Settings.insert]
    split
    next => exact List.forall_mem_cons.mpr ⟨hv, hrest⟩
    next => exact List.forall_mem_cons.mpr ⟨hfirst, ih hrest⟩

/-- Settings have no values but those of the entries they were loaded from. -/
theorem forall_mem_of_ofEntries {property : Value → Prop} {entries : List (Value × Value)}
    {s : Settings} (hentries : ∀ e ∈ entries, property e.2)
    (h : Settings.ofEntries entries = .ok s) : ∀ e ∈ s, property e.2 := by
  -- The settings at the start of the fold have to vary.
  have hfold : ∀ start : Settings, (∀ e ∈ start, property e.2) →
      entries.foldlM (fun s e ↦ return Settings.insert s (← e.1.written) e.2) start = .ok s →
      ∀ e ∈ s, property e.2 := by
    clear h
    induction entries with
    | nil =>
      intro start hstart h
      cases h
      exact hstart
    | cons e entries ih =>
      intro start hstart h
      obtain ⟨hfirst, hrest⟩ := List.forall_mem_cons.mp hentries
      rw [List.foldlM_cons] at h
      obtain ⟨next, hnext, h⟩ := bind_eq_ok_iff.mp h
      obtain ⟨name, -, hinsert⟩ := bind_eq_ok_iff.mp hnext
      cases hinsert
      exact ih hrest _ (forall_mem_insert hstart hfirst) h
  exact hfold [] (fun e he ↦ absurd he List.not_mem_nil) h

/-- Whether the values of settings are texts, if there are any settings. -/
def HasTextSettings (r : Remarks) : Prop := ∀ s, r.settings = some s → ∀ e ∈ s, e.2.isText = true

/-- The config of a node whose properties include the remarks is valid, if it is there. -/
theorem IsValid.settings {d : NodeDefinition} {v : Value} (h : IsValid d.name v)
    (hd : d ∈ nodeDefinitions) (hremarks : ∀ p ∈ remarkProperties, p ∈ d.properties) :
    v.field "config" = .null ∨ IsValid "config" (v.field "config") := by
  obtain ⟨entries, rfl, hs⟩ := (isValid_node_iff d hd).mp h
  exact hs.field_null_or_accepts (hremarks ("config", definition "config")
    (by simp [remarkProperties]))

/-- The settings that were loaded from a valid node have texts for values. -/
theorem hasTextSettings_of_load {d : NodeDefinition} {v : Value} {r : Remarks}
    (hvalid : IsValid d.name v) (hd : d ∈ nodeDefinitions)
    (hremarks : ∀ p ∈ remarkProperties, p ∈ d.properties)
    (h : (Remarks.load v).answer = .ok r) : HasTextSettings r := by
  intro s hs
  rw [Remarks.load, Query.answer_bind, Query.answer_ofExcept] at h
  obtain ⟨settings, hsettings, h⟩ := bind_eq_ok_iff.mp h
  cases h
  rw [Remarks.settingsOf] at hsettings
  split at hsettings
  next entries hentries =>
    obtain ⟨s', hs', hsome⟩ := bind_eq_ok_iff.mp hsettings
    cases hsome
    cases hs
    have hconfig := hvalid.settings hd hremarks
    rw [hentries] at hconfig
    rcases hconfig with hnull | hconfig
    · cases hnull
    · exact @forall_mem_of_ofEntries (fun w ↦ w.isText = true) _ _
        (isValid_config_iff.mp hconfig) hs'
  next =>
    cases hsettings
    cases hs

/-- Remarks fit as they are written, if the values of their settings are texts. -/
theorem fits_remarks {ps : List (String × Value)} {r : Remarks} (hps : (ps.map (·.1)).Nodup)
    (hremarks : ∀ p ∈ remarkProperties, p ∈ ps) (h : HasTextSettings r) :
    ∀ e ∈ r.entries, Fits ps e := by
  have hcomment := hremarks ("comment", definition "comment") (by simp [remarkProperties])
  have hconfig := hremarks ("config", definition "config") (by simp [remarkProperties])
  rw [Remarks.entries, List.forall_mem_cons]
  refine ⟨fits_of_accepts hps hcomment (isValid_comment r.comment), ?_⟩
  cases hs : r.settings with
  | none => exact fun e he ↦ absurd he List.not_mem_nil
  | some s =>
    have hvalid : IsValid "config" s.toDocument :=
      isValid_config_iff.mpr (List.forall_mem_map.mpr (h s hs))
    rw [List.forall_mem_singleton]
    exact fits_of_accepts hps hconfig hvalid

/-! ## Nodes -/

section

variable {v : Value}

/-- An optional text of a valid node is one, or is not there. -/
theorem IsValid.isOptionalText {d : NodeDefinition} {key : String} (h : IsValid d.name v)
    (hd : d ∈ nodeDefinitions) (hp : (key, ofTypes ["string", "null"]) ∈ d.properties) :
    (v.field key).IsOptionalText := by
  obtain ⟨entries, rfl, hs⟩ := (isValid_node_iff d hd).mp h
  rcases hs.field_null_or_accepts hp with hnull | hacc
  · exact Or.inl hnull
  · exact accepts_optionalText_iff.mp hacc

/-- What is loaded from a valid table is written as a valid table, if this is so for its entries. -/
theorem isTableOf_mapItems {α : Type} {kind : NodeKind} {name : String}
    {load : Value → Query (Option α)} {write : α → Value} {t : Table α} (hvalid : IsTableOf name v)
    (h : (loadChildren kind load v).answer = .ok t)
    (hwrite : ∀ w item, IsValid name w → (load w).answer = .ok (some item) →
      IsValid name (write item)) : IsTableOf name (.map (t.mapItems write)) := by
  refine ⟨_, rfl, List.forall_mem_map.mpr fun item hitem ↦ ?_⟩
  obtain ⟨e, -, -, hentry, hload⟩ := exists_valid_entry_of_mem hvalid h item hitem
  exact hwrite e.2 item.2 hentry hload

theorem isValid_toDocument_enumItem {i : EnumItem} (hvalid : IsValid "enumItem" v)
    (h : (EnumItem.load v).answer = .ok (some i)) : IsValid "enumItem" i.toDocument := by
  have hd : enumItemDefinition ∈ nodeDefinitions := by simp [nodeDefinitions]
  have hnames : (enumItemDefinition.properties.map (·.1)).Nodup := by decide
  have hremarks : ∀ p ∈ remarkProperties, p ∈ enumItemDefinition.properties :=
    fun _ hp ↦ List.mem_append_right _ hp
  have hread := EnumItem.isReadFrom_of_load h
  have hsettings : HasTextSettings i.remarks :=
    hasTextSettings_of_load (d := enumItemDefinition) hvalid hd hremarks hread.remarks
  have hrealname : i.realname.IsOptionalText := by
    rw [hread.realname]
    exact IsValid.isOptionalText (d := enumItemDefinition) hvalid hd (by simp [enumItemDefinition])
  have hnumber : Accepts projectReferences projectReferences.length (ofValue (ofType "number"))
      (EnumItem.numberDocument i.value) := by
    refine accepts_ofType_iff.mpr (hasType_number_iff.mpr ?_)
    cases i.value with
    | int n => exact Or.inl ⟨n, rfl⟩
    | float x => exact Or.inr ⟨x, rfl⟩
  refine (isValid_node_iff enumItemDefinition hd).mpr ⟨_, rfl, hasShape_of_fits ?_ ?_⟩
  · simp [enumItemDefinition, Value.lookup]
  · rw [List.cons_append, List.forall_mem_cons, List.forall_mem_append]
    exact ⟨fits_of_accepts hnames (by simp [enumItemDefinition]) hnumber,
      fits_remarks hnames hremarks hsettings,
      fits_optionalEntry hnames (by simp [enumItemDefinition])
        (Or.inr (accepts_optionalText_iff.mpr hrealname))⟩

theorem isValid_toDocument_enumeration {e : Enumeration} (hvalid : IsValid "enum" v)
    (h : (Enumeration.load v).answer = .ok (some e)) : IsValid "enum" e.toDocument := by
  have hd : enumDefinition ∈ nodeDefinitions := by simp [nodeDefinitions]
  have hnames : (enumDefinition.properties.map (·.1)).Nodup := by decide
  have hremarks : ∀ p ∈ remarkProperties, p ∈ enumDefinition.properties :=
    fun _ hp ↦ List.mem_cons_of_mem _ hp
  have hread := Enumeration.isReadFrom_of_load h
  have hsettings : HasTextSettings e.remarks :=
    hasTextSettings_of_load (d := enumDefinition) hvalid hd hremarks hread.remarks
  have hitems : IsTableOf "enumItem" (.map (e.items.mapItems EnumItem.toDocument)) :=
    isTableOf_mapItems hvalid.enumeration.2 hread.items
      fun _ _ hw hload ↦ isValid_toDocument_enumItem hw hload
  refine (isValid_node_iff enumDefinition hd).mpr ⟨_, rfl, hasShape_of_fits ?_ ?_⟩
  · simp [enumDefinition, Value.lookup]
  · rw [List.forall_mem_cons]
    exact ⟨fits_of_accepts hnames (by simp [enumDefinition]) (accepts_table_iff.mpr hitems),
      fits_remarks hnames hremarks hsettings⟩

theorem isValid_toDocument_field {f : Field} (hvalid : IsValid "field" v)
    (h : (Field.load v).answer = .ok (some f)) : IsValid "field" f.toDocument := by
  have hd : fieldDefinition ∈ nodeDefinitions := by simp [nodeDefinitions]
  have hnames : (fieldDefinition.properties.map (·.1)).Nodup := by decide
  have hremarks : ∀ p ∈ remarkProperties, p ∈ fieldDefinition.properties :=
    fun _ hp ↦ List.mem_append_right _ hp
  have hread := Field.isReadFrom_of_load h
  have hsettings : HasTextSettings f.remarks :=
    hasTextSettings_of_load (d := fieldDefinition) hvalid hd hremarks hread.remarks
  have htype : IsValid "fieldType" f.type.toDocument :=
    isValid_toDocument_fieldType (isReadFrom_of_isValid_fieldType hvalid.field.2.1 hread.type)
  have hrealname : f.realname.IsOptionalText := by
    rw [hread.realname]
    exact IsValid.isOptionalText (d := fieldDefinition) hvalid hd (by simp [fieldDefinition])
  have hanything : Accepts projectReferences projectReferences.length (ofValue (mapping []))
      f.fixedValue := by
    simp [mapping, Value.lookup, accepts_all_iff]
  refine (isValid_node_iff fieldDefinition hd).mpr ⟨_, rfl, hasShape_of_fits ?_ ?_⟩
  · simp [fieldDefinition, Value.lookup]
  · simp only [List.forall_mem_append, List.forall_mem_cons, List.not_mem_nil, false_implies,
      implies_true, and_true]
    exact ⟨⟨⟨⟨fits_of_accepts hnames (by simp [fieldDefinition]) htype,
        fits_of_accepts hnames (by simp [fieldDefinition]) (accepts_boolean f.isOptional),
        fits_of_accepts hnames (by simp [fieldDefinition]) (accepts_boolean f.isPathParameter)⟩,
      fits_remarks hnames hremarks hsettings⟩,
      fits_optionalEntry hnames (by simp [fieldDefinition])
        (Or.inr (accepts_optionalText_iff.mpr hrealname))⟩,
      fits_optionalEntry hnames (by simp [fieldDefinition]) (Or.inr hanything)⟩

theorem accepts_kind (kind : EntityKind) : Accepts projectReferences projectReferences.length
    (ofValue (mapping [("enum", .seq (wholeNumbers 3))])) (.int kind.toWire) := by
  have hlisted : (wholeNumbers 3).any (fun w ↦ listedSame w (.int kind.toWire)) = true := by
    cases kind <;> decide +kernel
  exact accepts_enum_iff.mpr (List.any_eq_true.mp hlisted)

theorem accepts_method (method : Method) : Accepts projectReferences projectReferences.length
    (ofValue (mapping [("enum", .seq (wholeNumbers 11 ++ [.null]))])) (.int method.toWire) := by
  have hlisted : (wholeNumbers 11 ++ [Value.null]).any (fun w ↦ listedSame w (.int method.toWire)) =
      true := by
    cases method <;> decide +kernel
  exact accepts_enum_iff.mpr (List.any_eq_true.mp hlisted)

/-- A path that may be left out is written, if it is there, as one. -/
theorem accepts_of_load_optionalPath {w : Value} (hvalid : v = .null ∨ IsValid "elementPath" v)
    (h : (ElementPath.load v).map ElementPath.toDocument = some w) :
    Accepts projectReferences projectReferences.length (ofValue optionalPath) w := by
  obtain ⟨path, hload, rfl⟩ := Option.map_eq_some_iff.mp h
  rcases hvalid with rfl | hvalid
  · cases hload
  · obtain ⟨hmodule, hname⟩ := coordinates_of_load hvalid hload
    exact accepts_optionalPath_of_coordinates hmodule hname

theorem isValid_toDocument_entity {e : Entity} (hvalid : IsValid "entity" v)
    (h : (Entity.load v).answer = .ok (some e)) : IsValid "entity" e.toDocument := by
  have hd : entityDefinition ∈ nodeDefinitions := by simp [nodeDefinitions]
  have hnames : (entityDefinition.properties.map (·.1)).Nodup := by decide
  have hremarks : ∀ p ∈ remarkProperties, p ∈ entityDefinition.properties :=
    fun _ hp ↦ List.mem_append_right _ hp
  have hread := Entity.isReadFrom_of_load h
  have hsettings : HasTextSettings e.remarks :=
    hasTextSettings_of_load (d := entityDefinition) hvalid hd hremarks hread.remarks
  obtain ⟨-, -, -, -, hfieldsValid, hbindingsValid⟩ := hvalid.entity
  have hfields : IsTableOf "field" (.map (e.fields.mapItems Field.toDocument)) :=
    isTableOf_mapItems hfieldsValid hread.fields
      fun _ _ hw hload ↦ isValid_toDocument_field hw hload
  have hbindings : IsTableOf "field" (.map (e.bindings.mapItems Field.toDocument)) :=
    isTableOf_mapItems hbindingsValid hread.bindings
      fun _ _ hw hload ↦ isValid_toDocument_field hw hload
  have hpath : e.path.IsOptionalText := by
    rw [hread.path]
    exact IsValid.isOptionalText (d := entityDefinition) hvalid hd (by simp [entityDefinition])
  refine (isValid_node_iff entityDefinition hd).mpr ⟨_, rfl, hasShape_of_fits ?_ ?_⟩
  · simp [entityDefinition, Value.lookup]
  · simp only [List.forall_mem_append, List.forall_mem_cons, List.not_mem_nil, false_implies,
      implies_true, and_true]
    refine ⟨⟨⟨⟨⟨⟨fits_of_accepts hnames (by simp [entityDefinition]) (accepts_kind e.kind),
        fits_of_accepts hnames (by simp [entityDefinition]) (accepts_boolean e.isAbstract),
        fits_of_accepts hnames (by simp [entityDefinition]) (accepts_table_iff.mpr hfields),
        fits_of_accepts hnames (by simp [entityDefinition]) (accepts_table_iff.mpr hbindings)⟩,
      fits_remarks hnames hremarks hsettings⟩, ?parent⟩, ?response⟩,
      fits_optionalEntry hnames (by simp [entityDefinition])
        (Or.inr (accepts_optionalText_iff.mpr hpath))⟩, ?method⟩
    case parent =>
      rw [hread.parent]
      exact fits_someEntry hnames (by simp [entityDefinition])
        fun w hw ↦ accepts_of_load_optionalPath hvalid.paths.1 hw
    case response =>
      rw [hread.response]
      exact fits_someEntry hnames (by simp [entityDefinition])
        fun w hw ↦ accepts_of_load_optionalPath hvalid.paths.2 hw
    case method =>
      have hdeclared : ("method", mapping [("enum", .seq (wholeNumbers 11 ++ [.null]))]) ∈
          entityDefinition.properties := by
        simp [entityDefinition]
      refine fits_someEntry hnames hdeclared fun w hw ↦ ?_
      obtain ⟨method, -, rfl⟩ := Option.map_eq_some_iff.mp hw
      exact accepts_method method

theorem isValid_toDocument_module {m : Module Entity} (hvalid : IsValid "module" v)
    (h : (Module.load v).answer = .ok (some m)) : IsValid "module" m.toDocument := by
  have hd : moduleDefinition ∈ nodeDefinitions := by simp [nodeDefinitions]
  have hnames : (moduleDefinition.properties.map (·.1)).Nodup := by decide
  have hread := Module.isReadFrom_of_load h
  obtain ⟨-, hentitiesValid, henumsValid⟩ := hvalid.moduleNode
  have hentities : IsTableOf "entity" (.map (m.entities.mapItems Entity.toDocument)) :=
    isTableOf_mapItems hentitiesValid hread.entities
      fun _ _ hw hload ↦ isValid_toDocument_entity hw hload
  have henums : IsTableOf "enum" (.map (m.enumerations.mapItems Enumeration.toDocument)) := by
    rcases henumsValid with hnull | htable
    · have hloaded := hread.enumerations
      rw [hnull] at hloaded
      have hnone : m.enumerations = [] := (Except.ok.inj hloaded).symm
      rw [hnone]
      exact ⟨[], rfl, fun e he ↦ absurd he List.not_mem_nil⟩
    · exact isTableOf_mapItems htable hread.enumerations
        fun _ _ hw hload ↦ isValid_toDocument_enumeration hw hload
  refine (isValid_node_iff moduleDefinition hd).mpr ⟨_, rfl, hasShape_of_fits ?_ ?_⟩
  · simp [moduleDefinition, Value.lookup]
  · rw [List.forall_mem_cons, List.forall_mem_singleton]
    exact ⟨fits_of_accepts hnames (by simp [moduleDefinition]) (accepts_table_iff.mpr hentities),
      fits_of_accepts hnames (by simp [moduleDefinition]) (accepts_table_iff.mpr henums)⟩

/-- A label is a text, whether it was there or not. -/
theorem accepts_label (h : v.IsOptionalText) :
    Accepts projectReferences projectReferences.length (ofValue (ofType "string"))
      (Project.label v) := by
  rw [label_of_isOptionalText h]
  split
  next => exact accepts_string _
  next hnull =>
    rcases h with rfl | htext
    · exact absurd rfl hnull
    · obtain ⟨t, rfl⟩ := Value.isText_iff.mp htext
      exact accepts_string t

/-- The project of a document without violations is written without violations. -/
theorem violations_toDocument_eq_nil {p : Project Entity} (hvalid : violations projectSchema v = [])
    (h : (Project.load v).answer = .ok (some p)) : violations projectSchema p.toDocument = [] := by
  have hnames : (documentProperties.map (·.1)).Nodup := by decide
  have hread := Project.isReadFrom_of_load h
  have hmodules : IsTableOf "module" (.map (p.modules.mapItems Module.toDocument)) :=
    isTableOf_mapItems (modules_of_violations_eq_nil hvalid).2 hread.modules
      fun _ _ hw hload ↦ isValid_toDocument_module hw hload
  have hlabel (key : String) (hkey : key ∈ ["name", "version", "targetPackage"]) :=
    accepts_label (isOptionalText_label hvalid key hkey)
  refine violations_projectSchema_eq_nil_iff.mpr ⟨_, rfl, hasShape_of_fits ?_ ?_⟩
  · simp [Value.lookup]
  · rw [hread.name, hread.version, hread.targetPackage]
    simp only [List.forall_mem_cons, List.not_mem_nil, false_implies, implies_true, and_true]
    exact ⟨fits_of_accepts hnames (by simp [documentProperties]) (hlabel "name" (by simp)),
      fits_of_accepts hnames (by simp [documentProperties]) (hlabel "version" (by simp)),
      fits_of_accepts hnames (by simp [documentProperties]) (hlabel "targetPackage" (by simp)),
      fits_of_accepts hnames (by simp [documentProperties]) (accepts_table_iff.mpr hmodules)⟩

end

end EntityGraph.Schema
