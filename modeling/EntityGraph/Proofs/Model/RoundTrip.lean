import EntityGraph.Proofs.Model.FieldType
import EntityGraph.Proofs.Model.Reading
import EntityGraph.Schema.ProjectSchema

/-!
# Reloading

A node that was loaded and is written as a document loads again as the same node, without a notice
on the way. Not every node does: a parameter that is null cannot be written, settings of one name
would fall together, and a label that counts as absent would be replaced. Loading never makes such
nodes. `IsRegular` says so of each kind of node; every node that a loader makes is regular, whatever
the document, and every regular node loads again.

Both halves go through the nodes from the leaves upwards. The types of fields are the only recursion
in them.
-/

namespace EntityGraph

/-! ## Remarks -/

namespace Settings

/-- Settings with one value for each name. -/
def IsRegular (s : Settings) : Prop := (s.map (·.1)).Nodup

theorem mem_names_insert {s : Settings} {name n : Text} {v : Value}
    (h : n ∈ (s.insert name v).map (·.1)) : n ∈ s.map (·.1) ∨ n = name := by
  induction s with
  | nil => exact Or.inr (List.mem_singleton.mp h)
  | cons e s ih =>
    obtain ⟨m, w⟩ := e
    rw [insert] at h
    by_cases hm : m = name
    · rw [if_pos hm] at h
      exact Or.inl h
    · rw [if_neg hm, List.map_cons] at h
      rcases List.mem_cons.mp h with rfl | h
      · exact Or.inl List.mem_cons_self
      · exact (ih h).imp_left (List.mem_cons_of_mem _)

theorem IsRegular.insert {s : Settings} (h : s.IsRegular) (name : Text) (v : Value) :
    (s.insert name v).IsRegular := by
  induction s with
  | nil => exact List.nodup_cons.mpr ⟨List.not_mem_nil, List.nodup_nil⟩
  | cons e s ih =>
    obtain ⟨m, w⟩ := e
    obtain ⟨hm, hs⟩ := List.nodup_cons.mp h
    rw [Settings.insert]
    by_cases hname : m = name
    · rw [if_pos hname]
      exact h
    · rw [if_neg hname]
      refine List.nodup_cons.mpr ⟨fun hmem ↦ ?_, ih hs⟩
      exact (mem_names_insert hmem).elim hm hname

theorem isRegular_of_ofEntries {entries : List (Value × Value)} {s : Settings}
    (h : ofEntries entries = .ok s) : s.IsRegular := by
  -- Settings are put in one by one, so the settings at the start of the fold have to vary.
  have hfold : ∀ start : Settings, start.IsRegular →
      entries.foldlM (fun s e ↦ return s.insert (← e.1.written) e.2) start = .ok s →
      s.IsRegular := by
    clear h
    induction entries with
    | nil =>
      intro start hstart h
      cases h
      exact hstart
    | cons e entries ih =>
      intro start hstart h
      rw [List.foldlM_cons] at h
      obtain ⟨next, hnext, h⟩ := bind_eq_ok_iff.mp h
      obtain ⟨name, -, hinsert⟩ := bind_eq_ok_iff.mp hnext
      cases hinsert
      exact ih _ (hstart.insert name e.2) h
  exact hfold [] List.nodup_nil h

/-- A new name goes last. -/
theorem insert_of_notMem {s : Settings} {name : Text} (h : name ∉ s.map (·.1)) (v : Value) :
    s.insert name v = s ++ [(name, v)] := by
  induction s with
  | nil => rfl
  | cons e s ih =>
    obtain ⟨m, w⟩ := e
    rw [List.map_cons, List.mem_cons, not_or] at h
    rw [insert, if_neg (Ne.symm h.1), ih h.2]
    rfl

theorem ofEntries_toDocument {s : Settings} (h : s.IsRegular) :
    ofEntries (s.map fun e ↦ (.str e.1, e.2)) = .ok s := by
  -- What is done already is regular together with the rest, so every name that comes is new.
  have hfold : ∀ done rest : Settings, IsRegular (done ++ rest) →
      (rest.map fun e ↦ (Value.str e.1, e.2)).foldlM
        (fun s e ↦ return Settings.insert s (← e.1.written) e.2) done =
          (.ok (done ++ rest) : Except Fault Settings) := by
    intro done rest
    induction rest generalizing done with
    | nil =>
      intro _
      rw [List.append_nil]
      rfl
    | cons e rest ih =>
      intro hdone
      obtain ⟨name, v⟩ := e
      have hname : name ∉ done.map (·.1) := by
        intro hmem
        rw [IsRegular, List.map_append, List.nodup_append] at hdone
        exact hdone.2.2 _ hmem _ List.mem_cons_self rfl
      have hstep := ih (done ++ [(name, v)]) (by rwa [List.append_assoc])
      rw [List.append_assoc] at hstep
      rw [List.map_cons, List.foldlM_cons]
      change (Except.ok (done.insert name v) >>= fun s ↦ _) = _
      rw [ok_bind, insert_of_notMem hname]
      exact hstep
  exact hfold [] s h

end Settings

@[simp] theorem Value.lookup_remarks (r : Remarks) (key : Text) :
    lookup key r.entries =
      if Text.ofString "comment" = key then some (.str r.comment)
      else if Text.ofString "config" = key then r.settings.map Settings.toDocument
      else none := by
  rw [Remarks.entries, lookup]
  congr 1
  cases r.settings with
  | none => simp [lookup]
  | some s => simp [lookup]

namespace Remarks

/-- Remarks with one value for each setting. -/
def IsRegular (r : Remarks) : Prop := ∀ s, r.settings = some s → s.IsRegular

theorem isRegular_of_load {v : Value} {r : Remarks} (h : (load v).answer = .ok r) :
    r.IsRegular := by
  rw [load, Query.answer_bind, Query.answer_ofExcept] at h
  obtain ⟨settings, hsettings, h⟩ := bind_eq_ok_iff.mp h
  cases h
  intro s hs
  rw [settingsOf] at hsettings
  split at hsettings
  next entries hentries =>
    obtain ⟨s', hs', hsome⟩ := bind_eq_ok_iff.mp hsettings
    cases hsome
    cases hs
    exact Settings.isRegular_of_ofEntries hs'
  next =>
    cases hsettings
    cases hs

/-- Remarks are read from a document that holds their entries. -/
theorem load_of_entries {r : Remarks} (h : r.IsRegular) {v : Value}
    (hcomment : v.field "comment" = .str r.comment)
    (hconfig : v.field "config" = (r.settings.map Settings.toDocument).getD .null) :
    load v = pure r := by
  have hsettings : settingsOf v = .ok r.settings := by
    rw [settingsOf, hconfig]
    cases hs : r.settings with
    | none => rfl
    | some s =>
      change some <$> Settings.ofEntries _ = _
      rw [Settings.ofEntries_toDocument (h s hs)]
      rfl
  rw [load, hsettings, commentOf, hcomment]
  rfl

end Remarks

/-! ## Types of fields -/

namespace FieldType

/-- Types whose parameters are all there. -/
def IsRegular : FieldType → Prop
  | .unknown parameter => parameter.isNull = false
  | .list member => member.IsRegular
  | _ => True

theorem isRegular_of_load {v : Value} {t : FieldType} (h : (load v).value = some t) :
    t.IsRegular := by
  induction t generalizing v with
  | list member ih =>
    rcases load_cases h with ⟨p, hp⟩ | ⟨path, hp⟩ | ⟨path, hp⟩ | ⟨m, hm, hload⟩ | ⟨a, ha, -⟩
    case inr.inr.inr.inl =>
      cases hm
      exact ih hload
    all_goals contradiction
  | unknown parameter =>
    rcases load_cases h with ⟨p, hp⟩ | ⟨path, hp⟩ | ⟨path, hp⟩ | ⟨m, hm, -⟩ | ⟨a, ha, hnull⟩
    case inr.inr.inr.inr =>
      cases ha
      exact hnull
    all_goals contradiction
  | _ => exact trivial

theorem load_toDocument {t : FieldType} (h : t.IsRegular) : load t.toDocument = pure (some t) := by
  induction t with
  | primitive p =>
    rw [toDocument]
    exact load_primitive (by simp [Value.lookup])
  | object path =>
    rw [toDocument, load_object (by simp [Value.lookup])]
    simp [Value.field, Value.lookup]
  | enumeration path =>
    rw [toDocument, load_enumeration (by simp [Value.lookup])]
    simp [Value.field, Value.lookup]
  | list member ih =>
    rw [toDocument, load_list (by simp [Value.lookup])]
    have hmember : (Value.map
        [(.str "type", .str "TList"), (.str "member", member.toDocument)]).field "member" =
          member.toDocument := by
      simp [Value.field, Value.lookup]
    rw [hmember, ih h]
    rfl
  | unknown parameter =>
    rw [toDocument, load_unknown (by simp [Value.lookup])]
    have hparameter : (Value.map
        [(.str "type", .str "TUnknown"), (.str "unknown", parameter)]).field "unknown" =
          parameter := by
      simp [Value.field, Value.lookup]
    rw [hparameter, if_neg (Bool.eq_false_iff.mp h)]

end FieldType

/-! ## Nodes -/

namespace EnumItem

/-- Items that loading can make. -/
def IsRegular (i : EnumItem) : Prop := i.remarks.IsRegular

theorem isRegular_of_load {v : Value} {i : EnumItem} (h : (load v).answer = .ok (some i)) :
    i.IsRegular :=
  Remarks.isRegular_of_load (isReadFrom_of_load h).remarks

theorem load_toDocument {i : EnumItem} (h : i.IsRegular) : load i.toDocument = pure (some i) := by
  have hvalue : i.toDocument.field "value" = numberDocument i.value := by
    simp [toDocument, Value.field, Value.lookup]
  have hnumber : number? (numberDocument i.value) = some i.value := by
    cases i.value with
    | int n => rfl
    | float x => rfl
  have hrealname : i.toDocument.field "realname" = i.realname := by
    simp [toDocument, Value.field, Value.lookup]
  have hremarks : Remarks.load i.toDocument = pure i.remarks := by
    refine Remarks.load_of_entries h ?_ ?_
    · simp [toDocument, Value.field, Value.lookup]
    · simp [toDocument, Value.field, Value.lookup]
  rw [load, hvalue, hnumber]
  simp only [hrealname, hremarks]
  rfl

end EnumItem

namespace Enumeration

/-- Enumerations that loading can make. -/
structure IsRegular (e : Enumeration) : Prop where
  items : ∀ i ∈ e.items, i.2.IsRegular
  remarks : e.remarks.IsRegular

theorem isRegular_of_load {v : Value} {e : Enumeration} (h : (load v).answer = .ok (some e)) :
    e.IsRegular := by
  have hread := isReadFrom_of_load h
  exact ⟨forall_mem_of_loadChildren (fun _ _ ↦ EnumItem.isRegular_of_load) hread.items,
    Remarks.isRegular_of_load hread.remarks⟩

theorem load_toDocument {e : Enumeration} (h : e.IsRegular) :
    load e.toDocument = pure (some e) := by
  have hitems : e.toDocument.field "enumMap" = .map (e.items.mapItems EnumItem.toDocument) := by
    simp [toDocument, Value.field, Value.lookup]
  have hremarks : Remarks.load e.toDocument = pure e.remarks := by
    refine Remarks.load_of_entries h.remarks ?_ ?_
    · simp [toDocument, Value.field, Value.lookup]
    · simp [toDocument, Value.field, Value.lookup]
  have hchildren : loadChildren .enumItem EnumItem.load (e.toDocument.field "enumMap") =
      pure e.items := by
    rw [hitems]
    exact loadEntries_mapItems fun i hi ↦ EnumItem.load_toDocument (h.items i hi)
  have hmissing : e.toDocument.missing requiredKeys = [] := by
    simp [Value.missing_eq_nil_iff, requiredKeys, hitems]
  rw [load, if_neg (not_not_intro hmissing), hchildren, hremarks]
  rfl

end Enumeration

namespace Field

/-- Fields that loading can make. -/
structure IsRegular (f : Field) : Prop where
  type : f.type.IsRegular
  remarks : f.remarks.IsRegular

theorem isRegular_of_load {v : Value} {f : Field} (h : (load v).answer = .ok (some f)) :
    f.IsRegular := by
  have hread := isReadFrom_of_load h
  exact ⟨FieldType.isRegular_of_load hread.type, Remarks.isRegular_of_load hread.remarks⟩

theorem load_toDocument {f : Field} (h : f.IsRegular) : load f.toDocument = pure (some f) := by
  have htype : f.toDocument.field "type" = f.type.toDocument := by
    simp [toDocument, Value.field, Value.lookup]
  have hoptional : f.toDocument.field "isOptional" = .bool f.isOptional := by
    simp [toDocument, Value.field, Value.lookup]
  have hparameter : f.toDocument.field "isPathParameter" = .bool f.isPathParameter := by
    simp [toDocument, Value.field, Value.lookup]
  have hrealname : f.toDocument.field "realname" = f.realname := by
    simp [toDocument, Value.field, Value.lookup]
  have hfixed : f.toDocument.field "fixedValue" = f.fixedValue := by
    simp [toDocument, Value.field, Value.lookup]
  have hremarks : Remarks.load f.toDocument = pure f.remarks := by
    refine Remarks.load_of_entries h.remarks ?_ ?_
    · simp [toDocument, Value.field, Value.lookup]
    · simp [toDocument, Value.field, Value.lookup]
  have hmissing : f.toDocument.missing requiredKeys = [] := by
    have htypeMap : f.type.toDocument.isNull = false := by
      cases f.type with
      | _ => rfl
    simp [Value.missing_eq_nil_iff, requiredKeys, htype, htypeMap, hoptional, hparameter]
  rw [load, if_neg (not_not_intro hmissing), htype, FieldType.load_toDocument h.type]
  simp only [hoptional, hparameter, hrealname, hfixed, hremarks]
  rfl

end Field

namespace Entity

/-- Entities that loading can make. -/
structure IsRegular (e : Entity) : Prop where
  fields : ∀ f ∈ e.fields, f.2.IsRegular
  bindings : ∀ f ∈ e.bindings, f.2.IsRegular
  remarks : e.remarks.IsRegular

theorem isRegular_of_load {v : Value} {e : Entity} (h : (load v).answer = .ok (some e)) :
    e.IsRegular := by
  have hread := isReadFrom_of_load h
  exact ⟨forall_mem_of_loadChildren (fun _ _ ↦ Field.isRegular_of_load) hread.fields,
    forall_mem_of_loadChildren (fun _ _ ↦ Field.isRegular_of_load) hread.bindings,
    Remarks.isRegular_of_load hread.remarks⟩

/-- A path that is set or not is read as it was written. -/
theorem load_getD_toDocument (path : Option ElementPath) :
    ElementPath.load ((path.map ElementPath.toDocument).getD .null) = path := by
  cases path with
  | none => rfl
  | some p => exact ElementPath.load_toDocument p

theorem loadMethod_getD (method : Option Method) :
    loadMethod ((method.map fun m ↦ Value.int m.toWire).getD .null) = pure (some method) := by
  cases method with
  | none => rfl
  | some m =>
    rw [Option.map_some, Option.getD_some, loadMethod, Method.ofWire?_toWire]
    rfl

theorem load_toDocument {e : Entity} (h : e.IsRegular) : load e.toDocument = pure (some e) := by
  have htype : e.toDocument.field "type" = .int e.kind.toWire := by
    simp [toDocument, Value.field, Value.lookup]
  have habstract : e.toDocument.field "isAbstract" = .bool e.isAbstract := by
    simp [toDocument, Value.field, Value.lookup]
  have hfields : e.toDocument.field "fieldsLocal" = .map (e.fields.mapItems Field.toDocument) := by
    simp [toDocument, Value.field, Value.lookup]
  have hbindings : e.toDocument.field "genericMap" =
      .map (e.bindings.mapItems Field.toDocument) := by
    simp [toDocument, Value.field, Value.lookup]
  have hparent : ElementPath.load (e.toDocument.field "parent") = e.parent := by
    rw [← load_getD_toDocument e.parent]
    congr 1
    simp [toDocument, Value.field, Value.lookup]
  have hresponse : ElementPath.load (e.toDocument.field "response") = e.response := by
    rw [← load_getD_toDocument e.response]
    congr 1
    simp [toDocument, Value.field, Value.lookup]
  have hpath : e.toDocument.field "path" = e.path := by
    simp [toDocument, Value.field, Value.lookup]
  have hmethod : loadMethod (e.toDocument.field "method") = pure (some e.method) := by
    rw [← loadMethod_getD e.method]
    congr 1
    simp [toDocument, Value.field, Value.lookup]
  have hremarks : Remarks.load e.toDocument = pure e.remarks := by
    refine Remarks.load_of_entries h.remarks ?_ ?_
    · simp [toDocument, Value.field, Value.lookup]
    · simp [toDocument, Value.field, Value.lookup]
  have hmissing : e.toDocument.missing requiredKeys = [] := by
    simp [Value.missing_eq_nil_iff, requiredKeys, htype, habstract, hfields, hbindings]
  have hfieldsLoaded : loadChildren .field Field.load (e.toDocument.field "fieldsLocal") =
      pure e.fields := by
    rw [hfields]
    exact loadEntries_mapItems fun f hf ↦ Field.load_toDocument (h.fields f hf)
  have hbindingsLoaded : loadChildren .genericBinding Field.load
      (e.toDocument.field "genericMap") = pure e.bindings := by
    rw [hbindings]
    exact loadEntries_mapItems fun f hf ↦ Field.load_toDocument (h.bindings f hf)
  rw [load, if_neg (not_not_intro hmissing), habstract, htype]
  simp only [EntityKind.ofWire?_toWire, hmethod, hfieldsLoaded, hbindingsLoaded, hparent,
    hresponse, hpath, hremarks]
  rfl

end Entity

namespace Module

/-- Modules that loading can make. -/
structure IsRegular (m : Module Entity) : Prop where
  entities : ∀ e ∈ m.entities, e.2.IsRegular
  enumerations : ∀ e ∈ m.enumerations, e.2.IsRegular

theorem isRegular_of_load {v : Value} {m : Module Entity} (h : (load v).answer = .ok (some m)) :
    m.IsRegular := by
  have hread := isReadFrom_of_load h
  exact ⟨forall_mem_of_loadChildren (fun _ _ ↦ Entity.isRegular_of_load) hread.entities,
    forall_mem_of_loadChildren (fun _ _ ↦ Enumeration.isRegular_of_load) hread.enumerations⟩

theorem load_toDocument {m : Module Entity} (h : m.IsRegular) :
    load m.toDocument = pure (some m) := by
  have hentities : m.toDocument.field "entities" =
      .map (m.entities.mapItems Entity.toDocument) := by
    simp [toDocument, Value.field, Value.lookup]
  have henums : m.toDocument.field "enums" =
      .map (m.enumerations.mapItems Enumeration.toDocument) := by
    simp [toDocument, Value.field, Value.lookup]
  have hmissing : m.toDocument.missing requiredKeys = [] := by
    simp [Value.missing_eq_nil_iff, requiredKeys, hentities]
  have hentitiesLoaded : loadChildren .entity Entity.load (m.toDocument.field "entities") =
      pure m.entities := by
    rw [hentities]
    exact loadEntries_mapItems fun e he ↦ Entity.load_toDocument (h.entities e he)
  have henumsLoaded : loadChildren .enumeration Enumeration.load (m.toDocument.field "enums") =
      pure m.enumerations := by
    rw [henums]
    exact loadEntries_mapItems fun e he ↦ Enumeration.load_toDocument (h.enumerations e he)
  have hnull : (m.toDocument.field "enums").isNull = false := by
    rw [henums, Value.isNull_map]
  rw [load, if_neg (not_not_intro hmissing), hentitiesLoaded]
  simp only [hnull, henumsLoaded]
  rfl

end Module

namespace Project

/-- Projects that loading can make: no label is absent. -/
structure IsRegular (p : Project Entity) : Prop where
  name : label p.name = p.name
  version : label p.version = p.version
  targetPackage : label p.targetPackage = p.targetPackage
  modules : ∀ m ∈ p.modules, m.2.IsRegular

/-- A label replaces what is absent once and for all. -/
theorem label_label (v : Value) : label (label v) = label v := by
  by_cases hv : v.isBlank = true
  · rw [label, label, if_pos hv]
    rfl
  · rw [label, label, if_neg hv, if_neg hv]

theorem isRegular_of_load {v : Value} {p : Project Entity} (h : (load v).answer = .ok (some p)) :
    p.IsRegular := by
  have hread := isReadFrom_of_load h
  have hlabel {w raw : Value} (hw : w = label raw) : label w = w := by
    rw [hw, label_label]
  exact ⟨hlabel hread.name, hlabel hread.version, hlabel hread.targetPackage,
    forall_mem_of_loadChildren (fun _ _ ↦ Module.isRegular_of_load) hread.modules⟩

theorem load_toDocument {p : Project Entity} (h : p.IsRegular) :
    load p.toDocument =
      (do Query.note (.projectLoaded p.name p.modules.length); return some p) := by
  have hname : p.toDocument.field "name" = p.name := by
    simp [toDocument, Value.field, Value.lookup]
  have hversion : p.toDocument.field "version" = p.version := by
    simp [toDocument, Value.field, Value.lookup]
  have htarget : p.toDocument.field "targetPackage" = p.targetPackage := by
    simp [toDocument, Value.field, Value.lookup]
  have hmodules : p.toDocument.field "modules" = .map (p.modules.mapItems Module.toDocument) := by
    simp [toDocument, Value.field, Value.lookup]
  have hmissing : p.toDocument.missing requiredKeys = [] := by
    simp [Value.missing_eq_nil_iff, requiredKeys, hmodules]
  have hloaded : loadChildren .moduleNode Module.load (p.toDocument.field "modules") =
      pure p.modules := by
    rw [hmodules]
    exact loadEntries_mapItems fun m hm ↦ Module.load_toDocument (h.modules m hm)
  rw [load, if_neg (not_not_intro hmissing), hloaded, hname, hversion, htarget, h.name, h.version,
    h.targetPackage]
  rfl

/-- A project that was loaded loads again from what is written of it, as the same project, and the
only notice is that it was loaded. -/
theorem load_toDocument_of_load {v : Value} {p : Project Entity}
    (h : (load v).answer = .ok (some p)) :
    (load p.toDocument).answer = .ok (some p) ∧
      (load p.toDocument).notices = [.projectLoaded p.name p.modules.length] := by
  rw [load_toDocument (isRegular_of_load h)]
  exact ⟨rfl, rfl⟩

/-! ### A shop -/

open Schema (mapping)

/-- A field of a type, with further entries. -/
def shopField (type : Value) (more : List (String × Value)) : Value :=
  mapping ([("type", type), ("isOptional", .bool false), ("isPathParameter", .bool false)] ++ more)

/-- An abstract entity with a parameter and with two settings that fall together. -/
def shopItem : Value :=
  mapping
    [("type", .int 0), ("isAbstract", .bool true),
      ("fieldsLocal", mapping
        [("id", shopField (mapping [("type", .str "TID")]) []),
          ("tags", shopField
            (mapping [("type", .str "TList"), ("member", mapping [("type", .str "TEnum"),
              ("enu", mapping [("module", .str "shop"), ("name", .str "Tag")])])])
            [("comment", .str "In any order")]),
          ("content", shopField (mapping [("type", .str "TUnknown"), ("unknown", .str "T")])
            [("realname", .str "content_"), ("fixedValue", .seq [.int 1, .null])])]),
      ("genericMap", mapping []), ("comment", .str "Anything for sale"),
      ("config", .map [(.bool true, .str "yes"), (.str "table", .str "items"),
        (.str "True", .str "no")])]

/-- An entity that binds the parameter of its parent. -/
def shopBook : Value :=
  mapping
    [("type", .int 0), ("isAbstract", .bool false),
      ("parent", mapping [("module", .str "shop"), ("name", .str "Item")]),
      ("fieldsLocal", mapping []),
      ("genericMap", mapping
        [("T", shopField
          (mapping [("type", .str "TObject"), ("entity", mapping [("name", .str "Page")])]) [])])]

/-- A field with a setting. -/
def shopQuery : Value :=
  shopField (mapping [("type", .str "TString")]) [("config", mapping [("limit", .str "80")])]

/-- A request with remarks, whose response is in no module. -/
def shopFind : Value :=
  mapping
    [("type", .int 1), ("isAbstract", .bool false),
      ("response", mapping [("module", .null), ("name", .str "Book")]),
      ("path", .str "/find"), ("method", .int 0),
      ("fieldsLocal", mapping [("query", shopQuery)]), ("genericMap", mapping []),
      ("comment", .str "Looks for books"), ("config", mapping [("route", .str "books")])]

/-- An item with a setting. -/
def shopOld : Value :=
  mapping
    [("value", .int 0), ("realname", .str "old_"), ("config", mapping [("shelf", .str "2")])]

/-- An enumeration with remarks on itself and on its items. -/
def shopTag : Value :=
  mapping
    [("enumMap", mapping
        [("NEW", mapping [("value", .int 1), ("comment", .str "This year")]), ("OLD", shopOld)]),
      ("config", mapping [])]

/-- The shop, with malformed nodes of every kind beside the others. -/
def partlyBroken : Value :=
  mapping
    [("name", .int 7), ("version", .bool false),
      ("modules", mapping
        [("shop", mapping
            [("entities", mapping
                [("Item", shopItem), ("Broken", mapping [("type", .int 0)]), ("Book", shopBook),
                  ("Find", shopFind),
                  ("Cart", mapping
                    [("type", .int 0), ("isAbstract", .bool false), ("parent", .str "Item"),
                      ("fieldsLocal", mapping
                        [("broken", shopField (mapping [("type", .str "TCart")]) [])]),
                      ("genericMap", mapping [("broken", .null)]), ("comment", .int 1)])]),
              ("enums", mapping
                [("Tag", shopTag), ("Broken", .str "enum"),
                  ("Size", mapping
                    [("enumMap", mapping [("broken", mapping [("value", .str "S")])])])])]),
          ("broken", .null)])]

/-- What is left of it. -/
def partlyBrokenProject : Project Entity where
  name := .int 7
  modules :=
    [(.str "shop",
      { entities :=
          [(.str "Item",
              { isAbstract := true
                fields :=
                  [(.str "id", { type := .primitive .id }),
                    (.str "tags",
                      { type := .list (.enumeration ⟨.str "shop", .str "Tag"⟩)
                        remarks := { comment := "In any order" } }),
                    (.str "content",
                      { type := .unknown (.str "T")
                        realname := .str "content_"
                        fixedValue := .seq [.int 1, .null] })]
                remarks :=
                  { comment := "Anything for sale"
                    settings := some [("True", .str "no"), ("table", .str "items")] } }),
            (.str "Book",
              { parent := some ⟨.str "shop", .str "Item"⟩
                bindings := [(.str "T", { type := .object ⟨.null, .str "Page"⟩ })] }),
            (.str "Find",
              { kind := .request
                response := some ⟨.null, .str "Book"⟩
                path := .str "/find"
                method := some .get
                fields :=
                  [(.str "query",
                    { type := .primitive .string
                      remarks := { settings := some [("limit", .str "80")] } })]
                remarks :=
                  { comment := "Looks for books"
                    settings := some [("route", .str "books")] } }),
            (.str "Cart", {})]
        enumerations :=
          [(.str "Tag",
              { items :=
                  [(.str "NEW", { value := .int 1, remarks := { comment := "This year" } }),
                    (.str "OLD",
                      { value := .int 0
                        realname := .str "old_"
                        remarks := { settings := some [("shelf", .str "2")] } })]
                remarks := { settings := some [] } }),
            (.str "Size", {})] })]

theorem load_toDocument_partlyBrokenProject :
    (load partlyBroken).answer = .ok (some partlyBrokenProject) ∧
      (load partlyBrokenProject.toDocument).answer = .ok (some partlyBrokenProject) ∧
      (load partlyBrokenProject.toDocument).notices = [.projectLoaded (.int 7) 1] := by
  have h : (load partlyBroken).answer = .ok (some partlyBrokenProject) := rfl
  exact ⟨h, load_toDocument_of_load h⟩

end Project

end EntityGraph
