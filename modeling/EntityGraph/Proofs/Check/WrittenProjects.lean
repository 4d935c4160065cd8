import EntityGraph.Proofs.Schema.WrittenParts

/-!
# Written projects

A project that was loaded from a valid document is written as a valid document from which nothing is
left out, whatever was left out of the first one. There are two exceptions, and both are faults of
numbers that are too long to be written. A valid document does not load at all if a setting that is
read is named by such a number. And the walk through a written project fails if anything in it is
named by one: it names everything that it comes to, whether or not it is dropped.
-/

namespace EntityGraph

open Schema

/-! ## Names -/

/-- The names in a table, each before the names below it. -/
def Table.allNames {α : Type} (below : α → List Value) (t : Table α) : List Value :=
  t.flatMap fun e ↦ e.1 :: below e.2

/-- The names of the items of an enumeration. -/
def Enumeration.allNames (e : Enumeration) : List Value := e.items.allNames fun _ ↦ []

/-- The names of the fields and the bindings of an entity. -/
def Entity.allNames (e : Entity) : List Value :=
  e.fields.allNames (fun _ ↦ []) ++ e.bindings.allNames fun _ ↦ []

def Module.allNames (m : Module Entity) : List Value :=
  m.entities.allNames Entity.allNames ++ m.enumerations.allNames Enumeration.allNames

/-- The names of all modules of a project and of everything in them, in document order. -/
def Project.allNames (p : Project Entity) : List Value := p.modules.allNames Module.allNames

/-- Whether all of some names can be written. -/
def AreNames (names : List Value) : Prop := ∀ name ∈ names, name.isWritable = true

theorem areNames_append {ns ms : List Value} : AreNames (ns ++ ms) ↔ AreNames ns ∧ AreNames ms :=
  List.forall_mem_append

theorem areNames_cons {name : Value} {ns : List Value} :
    AreNames (name :: ns) ↔ name.isWritable = true ∧ AreNames ns :=
  List.forall_mem_cons

theorem areNames_nil : AreNames [] := fun _ h ↦ absurd h List.not_mem_nil

namespace Dropped

/-! ## Nothing is dropped -/

section

variable {α : Type} {kind : NodeKind} {required : List Text} {load : Value → Query (Option α)}
  {path : Text} {inside : Value → Text → Query (List Issue)} {write : α → Value}
  {below : α → List Value} {t : Table α}

/-- Nothing is reported of a table that was written, provided that all names in it can be. -/
theorem decides_inEntries (hload : ∀ e ∈ t, load (write e.2) = pure (some e.2))
    (hinside : ∀ e ∈ t, ∀ here, Decides (AreNames (below e.2)) (fun issues ↦ issues = [])
      (inside (write e.2) here).answer) :
    Decides (AreNames (t.allNames below)) (fun issues ↦ issues = [])
      (inEntries kind required load path inside (t.mapItems write)).answer := by
  induction t with
  | nil => exact ⟨areNames_nil, rfl⟩
  | cons e t ih =>
    obtain ⟨hfirst, hrest⟩ := List.forall_mem_cons.mp hload
    obtain ⟨hbelow, hlater⟩ := List.forall_mem_cons.mp hinside
    have hothers := ih hrest hlater
    obtain ⟨name, item⟩ := e
    rw [Table.allNames, List.flatMap_cons, List.cons_append, areNames_cons, areNames_append,
      Table.mapItems, List.map_cons, inEntries, Query.answer_bind, Query.answer_ofExcept]
    refine (Decides.written name).bind fun token _ ↦ ?_
    rw [hfirst]
    simp only [Query.answer_bind, Query.answer_pure, ok_bind]
    refine (hbelow _).bind fun found hfound ↦ hothers.bind_ok fun issues hissues ↦ ?_
    rw [hfound, hissues]
    rfl

/-- Nothing is reported below a field or an item. -/
theorem decides_leaf (v : Value) (here : Text) :
    Decides (AreNames []) (fun issues ↦ issues = []) (leaf v here).answer := ⟨areNames_nil, rfl⟩

end

section

variable (here : Text)

theorem decides_inEntity {e : Entity} (h : e.IsRegular) :
    Decides (AreNames e.allNames) (fun issues ↦ issues = [])
      (inEntity e.toDocument here).answer := by
  have hfields : e.toDocument.field "fieldsLocal" = .map (e.fields.mapItems Field.toDocument) := by
    simp [Entity.toDocument, Value.field, Value.lookup]
  have hbindings : e.toDocument.field "genericMap" =
      .map (e.bindings.mapItems Field.toDocument) := by
    simp [Entity.toDocument, Value.field, Value.lookup]
  rw [Entity.allNames, areNames_append, inEntity, hfields, hbindings]
  simp only [Query.answer_bind]
  refine (decides_inEntries (fun f hf ↦ Field.load_toDocument (h.fields f hf))
    fun f _ ↦ decides_leaf _).bind fun fields hfields ↦ ?_
  refine (decides_inEntries (fun f hf ↦ Field.load_toDocument (h.bindings f hf))
    fun f _ ↦ decides_leaf _).bind_ok fun bindings hbindings ↦ ?_
  rw [hfields, hbindings]
  rfl

theorem decides_inEnumeration {e : Enumeration} (h : e.IsRegular) :
    Decides (AreNames e.allNames) (fun issues ↦ issues = [])
      (inEnumeration e.toDocument here).answer := by
  have hitems : e.toDocument.field "enumMap" = .map (e.items.mapItems EnumItem.toDocument) := by
    simp [Enumeration.toDocument, Value.field, Value.lookup]
  rw [inEnumeration, hitems]
  exact decides_inEntries (fun i hi ↦ EnumItem.load_toDocument (h.items i hi))
    fun i _ ↦ decides_leaf _

theorem decides_inModule {m : Module Entity} (h : m.IsRegular) :
    Decides (AreNames m.allNames) (fun issues ↦ issues = [])
      (inModule m.toDocument here).answer := by
  have hentities : m.toDocument.field "entities" =
      .map (m.entities.mapItems Entity.toDocument) := by
    simp [Module.toDocument, Value.field, Value.lookup]
  have henums : m.toDocument.field "enums" =
      .map (m.enumerations.mapItems Enumeration.toDocument) := by
    simp [Module.toDocument, Value.field, Value.lookup]
  rw [Module.allNames, areNames_append, inModule, hentities, henums]
  simp only [Query.answer_bind]
  refine (decides_inEntries (fun e he ↦ Entity.load_toDocument (h.entities e he))
    fun e he below ↦ decides_inEntity below (h.entities e he)).bind fun entities hentities ↦ ?_
  refine (decides_inEntries (fun e he ↦ Enumeration.load_toDocument (h.enumerations e he))
    fun e he below ↦ decides_inEnumeration below (h.enumerations e he)).bind_ok
      fun enumerations henumerations ↦ ?_
  rw [hentities, henumerations]
  rfl

end

end Dropped

open Dropped in
/-- Nothing is dropped from a project that was loaded and written, and this can be told exactly if
all names in it can be written. -/
theorem decides_droppedIssues_toDocument {p : Project Entity} (h : p.IsRegular) :
    Decides (AreNames p.allNames) (fun issues ↦ issues = [])
      (droppedIssues p.toDocument).answer := by
  have hmodules : p.toDocument.field "modules" = .map (p.modules.mapItems Module.toDocument) := by
    simp [Project.toDocument, Value.field, Value.lookup]
  have hload : (Project.load p.toDocument).answer = .ok (some p) := by
    rw [Project.load_toDocument h]
    rfl
  rw [droppedIssues, Query.answer_bind, hload, ok_bind]
  simp only [hmodules]
  exact decides_inEntries (fun m hm ↦ Module.load_toDocument (h.modules m hm))
    fun m hm below ↦ decides_inModule below (h.modules m hm)

/-! ## Documents that do not come through -/

theorem isValid_module_of_tables {entities enums : Value} (hentities : IsTableOf "entity" entities)
    (henums : IsTableOf "enum" enums) :
    IsValid "module" (mapping [("entities", entities), ("enums", enums)]) := by
  refine (isValid_node_iff moduleDefinition (by simp [nodeDefinitions])).mpr ⟨_, rfl, ?_, ?_⟩
  · simp [moduleDefinition, Value.lookup]
  · simpa [moduleDefinition, Value.lookup] using
      ⟨accepts_table_iff.mpr hentities, accepts_table_iff.mpr henums⟩

/-- A document with one enumeration, which has one setting, named by a whole number. -/
def settingsDocument (n : Int) : Value :=
  mapping [("modules", mapping [("m", mapping [("entities", mapping []),
    ("enums", mapping [("e", mapping [("enumMap", mapping []),
      ("config", .map [(.int n, .str "x")])])])])])]

theorem structureIssues_settingsDocument (n : Int) :
    structureIssues projectSchema (settingsDocument n) = .ok [] := by
  have hempty (name : String) : IsTableOf name (mapping []) :=
    ⟨[], rfl, fun e he ↦ absurd he List.not_mem_nil⟩
  have hconfig : IsValid "config" (.map [(.int n, .str "x")]) :=
    isValid_config_iff.mpr (List.forall_mem_singleton.mpr rfl)
  have henum : IsValid "enum" (mapping [("enumMap", mapping []),
      ("config", .map [(.int n, .str "x")])]) := by
    refine (isValid_node_iff enumDefinition (by simp [nodeDefinitions])).mpr ⟨_, rfl, ?_, ?_⟩
    · simp [enumDefinition, Value.lookup]
    · simpa [enumDefinition, remarkProperties, Value.lookup] using
        ⟨accepts_table_iff.mpr (hempty "enumItem"), hconfig⟩
  have henums : IsTableOf "enum" (mapping [("e", mapping [("enumMap", mapping []),
      ("config", .map [(.int n, .str "x")])])]) :=
    ⟨_, rfl, by simpa using henum⟩
  refine Dropped.structureIssues_of_isTableOf ⟨_, rfl, ?_⟩
  rw [List.map_singleton, List.forall_mem_singleton]
  exact isValid_module_of_tables (hempty "entity") henums

theorem namesSettings_settingsDocument (n : Int) :
    NamesSettings (projectNodes (settingsDocument n)) ↔ Integer.isWritable n = true := by
  have hnodes : projectNodes (settingsDocument n) =
      [mapping [("enumMap", mapping []), ("config", .map [(.int n, .str "x")])]] := by
    simp [projectNodes, moduleNodes, enumerationNodes, settingsDocument, mapping, Value.field,
      Value.lookup, Dropped.entriesOf]
  rw [hnodes, namesSettings_singleton]
  simp [Value.namesSettings, mapping, Value.field, Value.lookup, Dropped.entriesOf,
    Value.isWritable]

/-- It does not load if the number has no text. -/
theorem answer_load_settingsDocument {n : Int} (h : Integer.isWritable n = false) :
    (Project.load (settingsDocument n)).answer = .error .numberTooLong := by
  have hviolations := violations_eq_nil_of_structureIssues_eq_nil
    (structureIssues_settingsDocument n)
  refine (decides_project hviolations).eq_error fun hnames ↦ ?_
  rw [namesSettings_settingsDocument, h] at hnames
  cases hnames

/-! ## The law -/

/-- A valid document is loaded and written as a valid document again, and nothing is dropped from
that. It loads exactly if the settings that are read in it have names that can be written; and that
nothing is dropped can be told exactly if all names in the project can be written. -/
theorem Project.isClean_toDocument {document : Value}
    (h : structureIssues projectSchema document = .ok []) :
    (NamesSettings (projectNodes document) →
      ∃ p, (Project.load document).answer = .ok (some p) ∧
        structureIssues projectSchema p.toDocument = .ok [] ∧
        (AreNames p.allNames → (droppedIssues p.toDocument).answer = .ok []) ∧
        (¬ AreNames p.allNames → (droppedIssues p.toDocument).answer = .error .numberTooLong)) ∧
      (¬ NamesSettings (projectNodes document) →
        (Project.load document).answer = .error .numberTooLong) := by
  have hviolations := violations_eq_nil_of_structureIssues_eq_nil h
  have hdecides := decides_project hviolations
  refine ⟨fun hnames ↦ ?_, hdecides.eq_error⟩
  obtain ⟨p, hload⟩ := (hdecides.settles id).exists_some hnames
  have hwritten := violations_toDocument_eq_nil hviolations hload
  have hdropped := decides_droppedIssues_toDocument (isRegular_of_load hload)
  refine ⟨p, hload, structureIssues_of_violations_eq_nil rfl hwritten, fun hall ↦ ?_,
    hdropped.eq_error⟩
  obtain ⟨issues, hanswer, rfl⟩ := (hdropped.settles id).exists_answer hall
  exact hanswer

/-! ### A shop with one entity that is left out -/

namespace Project

/-- Another document of the shop: a request and an enumeration with remarks, and an entity that does
not load. -/
def shopDocument : Value :=
  mapping
    [("modules", mapping
      [("shop", mapping
        [("entities", mapping [("Find", shopFind), ("Lost", Dropped.floatWiredEntity)]),
          ("enums", mapping [("Tag", shopTag)])])])]

/-- What is loaded from it. -/
def shopProject : Project Entity where
  modules :=
    [(.str "shop",
      { entities :=
          [(.str "Find",
              { kind := .request
                response := some ⟨.null, .str "Book"⟩
                path := .str "/find"
                method := some .get
                fields :=
                  [(.str "query",
                    { type := .primitive .string
                      remarks := { settings := some [("limit", .str "80")] } })]
                remarks :=
                  { comment := "Looks for books"
                    settings := some [("route", .str "books")] } })]
        enumerations :=
          [(.str "Tag",
              { items :=
                  [(.str "NEW", { value := .int 1, remarks := { comment := "This year" } }),
                    (.str "OLD",
                      { value := .int 0
                        realname := .str "old_"
                        remarks := { settings := some [("shelf", .str "2")] } })]
                remarks := { settings := some [] } })] })]

theorem isValid_shopQuery : IsValid "field" shopQuery := by
  have htype : IsValid "fieldType" (mapping [("type", .str "TString")]) := by
    refine isValid_fieldType_iff.mpr ⟨_, rfl, ⟨"TString", by decide, rfl⟩, ?_⟩
    simp [typePayloads, Value.lookup]
  have hconfig : IsValid "config" (mapping [("limit", .str "80")]) :=
    isValid_config_iff.mpr (by decide)
  refine (isValid_node_iff fieldDefinition (by simp [nodeDefinitions])).mpr ⟨_, rfl, ?_, ?_⟩
  · simp [fieldDefinition, Value.lookup]
  · simpa [fieldDefinition, remarkProperties, Value.lookup] using
      ⟨htype, accepts_boolean false, hconfig⟩

theorem isValid_shopFind : IsValid "entity" shopFind := by
  have hresponse := @accepts_optionalPath_of_coordinates ⟨.null, .str "Book"⟩ (.inl rfl) (.inr rfl)
  have hpath : Accepts projectReferences projectReferences.length
      (ofValue (ofTypes ["string", "null"])) (.str "/find") :=
    accepts_optionalText_iff.mpr (Or.inr rfl)
  have hfields : IsTableOf "field" (mapping [("query", shopQuery)]) :=
    ⟨_, rfl, by simpa using isValid_shopQuery⟩
  have hbindings : IsTableOf "field" (mapping []) :=
    ⟨_, rfl, fun e he ↦ absurd he List.not_mem_nil⟩
  have hconfig : IsValid "config" (mapping [("route", .str "books")]) :=
    isValid_config_iff.mpr (by decide)
  refine (isValid_node_iff entityDefinition (by simp [nodeDefinitions])).mpr ⟨_, rfl, ?_, ?_⟩
  · simp [entityDefinition, Value.lookup]
  · simpa [entityDefinition, remarkProperties, Value.lookup] using
      ⟨accepts_kind .request, accepts_boolean false, hresponse, hpath, accepts_method .get,
        accepts_table_iff.mpr hfields, accepts_table_iff.mpr hbindings,
        isValid_comment "Looks for books", hconfig⟩

theorem isValid_shopTag : IsValid "enum" shopTag := by
  have hvalue (n : Int) : Accepts projectReferences projectReferences.length
      (ofValue (ofType "number")) (.int n) := accepts_ofType_iff.mpr rfl
  have hrealname : Accepts projectReferences projectReferences.length
      (ofValue (ofTypes ["string", "null"])) (.str "old_") :=
    accepts_optionalText_iff.mpr (Or.inr rfl)
  have hshelf : IsValid "config" (mapping [("shelf", .str "2")]) :=
    isValid_config_iff.mpr (by decide)
  have hnew : IsValid "enumItem" (mapping [("value", .int 1), ("comment", .str "This year")]) := by
    refine (isValid_node_iff enumItemDefinition (by simp [nodeDefinitions])).mpr ⟨_, rfl, ?_, ?_⟩
    · simp [enumItemDefinition, Value.lookup]
    · simpa [enumItemDefinition, remarkProperties, Value.lookup] using
        ⟨hvalue 1, isValid_comment "This year"⟩
  have hold : IsValid "enumItem" shopOld := by
    refine (isValid_node_iff enumItemDefinition (by simp [nodeDefinitions])).mpr ⟨_, rfl, ?_, ?_⟩
    · simp [enumItemDefinition, Value.lookup]
    · simpa [enumItemDefinition, remarkProperties, Value.lookup] using
        ⟨hvalue 0, hrealname, hshelf⟩
  have hitems : IsTableOf "enumItem" (mapping
      [("NEW", mapping [("value", .int 1), ("comment", .str "This year")]), ("OLD", shopOld)]) :=
    ⟨_, rfl, by simpa using ⟨hnew, hold⟩⟩
  have hconfig : IsValid "config" (mapping []) := isValid_config_iff.mpr (by decide)
  refine (isValid_node_iff enumDefinition (by simp [nodeDefinitions])).mpr ⟨_, rfl, ?_, ?_⟩
  · simp [enumDefinition, Value.lookup]
  · simpa [enumDefinition, remarkProperties, Value.lookup] using
      ⟨accepts_table_iff.mpr hitems, hconfig⟩

theorem structureIssues_shopDocument : structureIssues projectSchema shopDocument = .ok [] := by
  have hentities : IsTableOf "entity"
      (mapping [("Find", shopFind), ("Lost", Dropped.floatWiredEntity)]) :=
    ⟨_, rfl, by simpa using ⟨isValid_shopFind, Dropped.isValid_floatWiredEntity⟩⟩
  have henums : IsTableOf "enum" (mapping [("Tag", shopTag)]) :=
    ⟨_, rfl, by simpa using isValid_shopTag⟩
  refine Dropped.structureIssues_of_isTableOf ⟨_, rfl, ?_⟩
  rw [List.map_singleton, List.forall_mem_singleton]
  exact isValid_module_of_tables hentities henums

/-- Its settings and its names can be written, and the entity that was left out of it is reported of
the document and no longer of what is written. -/
theorem isClean_toDocument_shopDocument :
    structureIssues projectSchema shopDocument = .ok [] ∧
      shopFind ∈ projectNodes shopDocument ∧ shopTag ∈ projectNodes shopDocument ∧
      NamesSettings (projectNodes shopDocument) ∧ AreNames shopProject.allNames ∧
      (load shopDocument).answer = .ok (some shopProject) ∧
      (droppedIssues shopDocument).answer =
        .ok [Dropped.unsupportedEntity ⟨.str "shop", .str "Lost"⟩] ∧
      structureIssues projectSchema shopProject.toDocument = .ok [] ∧
      (droppedIssues shopProject.toDocument).answer = .ok [] := by
  have hvalid := structureIssues_shopDocument
  have hfind : shopFind ∈ projectNodes shopDocument := List.mem_of_getElem? (i := 1) rfl
  have htag : shopTag ∈ projectNodes shopDocument := List.mem_of_getElem? (i := 4) rfl
  have hnames : NamesSettings (projectNodes shopDocument) :=
    namesSettings_projectNodes (by decide +kernel)
  have hall : AreNames shopProject.allNames := by
    unfold AreNames
    decide +kernel
  have hload : (load shopDocument).answer = .ok (some shopProject) := rfl
  have hdropped : (droppedIssues shopDocument).answer =
      .ok [Dropped.unsupportedEntity ⟨.str "shop", .str "Lost"⟩] := rfl
  obtain ⟨p, hp, hwritten, hclean, -⟩ := (isClean_toDocument hvalid).1 hnames
  cases hload.symm.trans hp
  exact ⟨hvalid, hfind, htag, hnames, hall, hload, hdropped, hwritten, hclean hall⟩

end Project

/-- Two valid documents with a number that cannot be written: one does not load, and from what is
written of the other it cannot be told what is dropped. -/
theorem Project.not_isClean_toDocument :
    (∃ n, structureIssues projectSchema (settingsDocument n) = .ok [] ∧
        ∀ p, (Project.load (settingsDocument n)).answer ≠ .ok (some p)) ∧
      ∃ n p, structureIssues projectSchema (Dropped.numberedDocument n) = .ok [] ∧
        (Project.load (Dropped.numberedDocument n)).answer = .ok (some p) ∧
        (droppedIssues p.toDocument).answer ≠ .ok [] := by
  have hlong : (Value.int (tenTo Integer.digitLimit)).isWritable = false :=
    Value.isWritable_int_tenTo
  constructor
  · refine ⟨tenTo Integer.digitLimit, structureIssues_settingsDocument _, fun p hp ↦ ?_⟩
    rw [answer_load_settingsDocument hlong] at hp
    cases hp
  · obtain ⟨p, hload, hmodules⟩ := Dropped.exists_load_numberedDocument (tenTo Integer.digitLimit)
    refine ⟨_, p, Dropped.structureIssues_numberedDocument _, hload, fun hanswer ↦ ?_⟩
    have hnames : AreNames p.allNames := by
      have hdecides := decides_droppedIssues_toDocument (isRegular_of_load hload)
      rw [hanswer] at hdecides
      exact hdecides.1
    rw [allNames, hmodules] at hnames
    have hname := hnames _ List.mem_cons_self
    rw [hlong] at hname
    cases hname

end EntityGraph
