import EntityGraph.Model.Project
import EntityGraph.Proofs.Model.FieldType
import EntityGraph.Proofs.Schema.ProjectDocuments
import EntityGraph.Proofs.Value.Keys

/-!
# Loading valid parts

A valid part of a document loads, with two exceptions that the schema cannot see. An entity whose
kind or method is written with a point is valid, because numbers are compared by their value, and
does not load, because a wire number is a whole one. And a setting is named by the text of its key,
so a key without a text is a fault of loading. Everything else that is valid loads: this is shown
from the types of fields upwards, one node after the other.

Not every node has its settings read, as nothing is read below an entity that does not load. The
nodes that have are listed, and loading decides whether all of their settings have names.
-/

namespace EntityGraph

open Dropped (entriesOf)

/-! ## Settings -/

section Settings

variable {condition : Prop} {v : Value}

/-- Whether every setting of a node has a name that can be written. -/
def Value.namesSettings (v : Value) : Bool :=
  (entriesOf (v.field "config")).all fun e ↦ e.1.isWritable

theorem decides_ofEntries (entries : List (Value × Value)) :
    Decides (∀ e ∈ entries, e.1.isWritable = true) (fun _ ↦ True) (Settings.ofEntries entries) := by
  rw [Settings.ofEntries]
  -- Whether the fold meets a fault does not depend on the settings it starts from.
  generalize ([] : Settings) = s
  induction entries generalizing s with
  | nil => exact ⟨fun e he ↦ absurd he List.not_mem_nil, trivial⟩
  | cons e entries ih =>
    have hfirst : Decides (e.1.isWritable = true) (fun _ ↦ True)
        (e.1.written >>= fun name ↦ .ok (Settings.insert s name e.2)) :=
      (Decides.written _).bind_ok fun _ _ ↦ trivial
    rw [List.foldlM_cons, List.forall_mem_cons]
    exact hfirst.bind fun s' _ ↦ ih s'

/-- The remarks of a value load exactly if its settings have names. -/
theorem decides_remarks (v : Value) :
    Decides (v.namesSettings = true) (fun _ ↦ True) (Remarks.load v).answer := by
  have hsettings : Decides (v.namesSettings = true) (fun _ ↦ True) (Remarks.settingsOf v) := by
    rw [Value.namesSettings, Remarks.settingsOf]
    split
    next entries hentries =>
      rw [hentries, entriesOf, List.all_eq_true]
      exact (decides_ofEntries entries).bind_ok fun _ _ ↦ trivial
    next hconfig =>
      have hnone : entriesOf (v.field "config") = [] := by
        cases hv : v.field "config" with
        | map entries => exact absurd hv (hconfig entries)
        | _ => rfl
      rw [hnone]
      exact ⟨rfl, trivial⟩
  rw [Remarks.load, Query.answer_bind, Query.answer_ofExcept]
  exact hsettings.bind_ok fun _ _ ↦ trivial

theorem namesSettings_of_keysWritable (h : v.keysWritable = true) : v.namesSettings = true := by
  rw [Value.namesSettings, List.all_eq_true]
  exact fun e he ↦ (writable_of_mem_entriesOf (Value.keysWritable_field h _) he).1

/-- The remarks of a value load if its keys have texts. -/
theorem settles_remarks (h : condition → v.keysWritable = true) :
    Settles condition (fun _ ↦ True) (Remarks.load v).answer :=
  (decides_remarks v).settles fun hc ↦ namesSettings_of_keysWritable (h hc)

end Settings

/-! ## Wire numbers -/

theorem twoTo_pos (n : Nat) : 0 < twoTo n := Nat.pow_pos (Nat.succ_pos 1)

theorem Number.same_int_iff {m n : Int} : (Number.int m).same (.int n) = true ↔ m = n := by
  have hshift : ((twoTo Binary64.unitShift : Nat) : Int) ≠ 0 :=
    Int.natCast_ne_zero.mpr (Nat.ne_of_gt (twoTo_pos _))
  constructor
  · intro h
    rw [Number.same, Bool.or_eq_true] at h
    rcases h with h | h
    · simp only [Number.eq, Number.extent?, beq_iff_eq, Binary64.Extent.at.injEq] at h
      exact Int.eq_of_mul_eq_mul_right hshift h
    · exact Number.int.inj (beq_iff_eq.mp h)
  · rintro rfl
    rw [Number.same, beq_self_eq_true, Bool.or_true]

/-- Whether a value is a number with a point. -/
def Value.isFloat : Value → Bool
  | .float _ => true
  | _ => false

/-- A value that equals one of the first whole numbers is that number, or written with a point. -/
theorem eq_int_or_isFloat_of_listed {count : Nat} {v : Value}
    (h : ∃ w ∈ Schema.wholeNumbers count, Schema.listedSame w v = true) :
    (∃ k < count, v = .int k) ∨ v.isFloat = true := by
  obtain ⟨w, hw, hsame⟩ := h
  rw [Schema.wholeNumbers, List.mem_map] at hw
  obtain ⟨k, hk, rfl⟩ := hw
  cases v with
  | int n =>
    left
    have hnum : (Number.int k).same (.int n) = true := by
      simpa [Schema.listedSame, Value.same, Value.number?] using hsame
    exact ⟨k, List.mem_range.mp hk, by rw [Number.same_int_iff.mp hnum]⟩
  | float x => exact Or.inr rfl
  | _ => simp [Schema.listedSame, Value.same, Value.number?] at hsame

theorem EntityKind.exists_ofWire? {k : Nat} (h : k < 3) :
    ∃ kind, EntityKind.ofWire? (.int k) = some kind := by
  have hall : ∀ i : Fin 3, ∃ kind ∈ EntityKind.all,
      EntityKind.ofWire? (.int i.val) = some kind := by
    decide
  obtain ⟨kind, -, hkind⟩ := hall ⟨k, h⟩
  exact ⟨kind, hkind⟩

theorem Method.exists_ofWire? {k : Nat} (h : k < 11) :
    ∃ method, Method.ofWire? (.int k) = some method := by
  have hall : ∀ i : Fin 11, ∃ m ∈ Method.all, Method.ofWire? (.int i.val) = some m := by
    decide
  obtain ⟨method, -, hmethod⟩ := hall ⟨k, h⟩
  exact ⟨method, hmethod⟩

/-! ## Types of fields -/

open Schema

theorem sizeOf_field_lt {entries : List (Value × Value)} (key : Text) (hne : entries ≠ []) :
    sizeOf ((Value.map entries).field key) < sizeOf (Value.map entries) := by
  rw [Value.field, Value.map.sizeOf_spec]
  cases hw : Value.lookup key entries with
  | none =>
    obtain ⟨e, rest, rfl⟩ := List.exists_cons_of_ne_nil hne
    simp only [Option.getD_none, List.cons.sizeOf_spec, Value.null.sizeOf_spec]
    omega
  | some w =>
    have hlt := sizeOf_lookup_lt hw
    simp only [Option.getD_some]
    omega

/-- What valid values of types hold, and the types that they describe. -/
inductive FieldType.IsReadFrom : FieldType → Value → Prop where
  | primitive {entries : List (Value × Value)} (p : Primitive) :
    Value.lookup "type" entries = some (.str p.tag) → IsReadFrom (.primitive p) (.map entries)
  | object {entries : List (Value × Value)} {path : ElementPath} :
    Value.lookup "type" entries = some (.str "TObject") →
      IsValid "elementPath" ((Value.map entries).field "entity") →
      ElementPath.load ((Value.map entries).field "entity") = some path →
      IsReadFrom (.object path) (.map entries)
  | enumeration {entries : List (Value × Value)} {path : ElementPath} :
    Value.lookup "type" entries = some (.str "TEnum") →
      IsValid "elementPath" ((Value.map entries).field "enu") →
      ElementPath.load ((Value.map entries).field "enu") = some path →
      IsReadFrom (.enumeration path) (.map entries)
  | list {entries : List (Value × Value)} {member : FieldType} :
    Value.lookup "type" entries = some (.str "TList") →
      IsReadFrom member ((Value.map entries).field "member") →
      IsReadFrom (.list member) (.map entries)
  | unknown {entries : List (Value × Value)} {parameter : Text} :
    Value.lookup "type" entries = some (.str "TUnknown") →
      (Value.map entries).field "unknown" = .str parameter →
      IsReadFrom (.unknown (.str parameter)) (.map entries)

theorem FieldType.IsReadFrom.isMap {t : FieldType} {v : Value} (h : t.IsReadFrom v) :
    v.isMap = true := by
  cases h <;> rfl

theorem FieldType.IsReadFrom.load_eq {t : FieldType} {v : Value} (h : t.IsReadFrom v) :
    (load v).value = some t := by
  induction h with
  | primitive p htag =>
    rw [load_primitive htag]
    rfl
  | object htag _ hpath =>
    rw [load_object htag, hpath]
    rfl
  | enumeration htag _ hpath =>
    rw [load_enumeration htag, hpath]
    rfl
  | list htag _ ih =>
    rw [load_list htag, Logged.map_value, ih]
    rfl
  | unknown htag hparameter =>
    rw [load_unknown htag, hparameter]
    rfl

/-- A valid value describes a type, at any depth of lists. -/
theorem exists_isReadFrom_of_isValid_fieldType {v : Value} (h : IsValid "fieldType" v) :
    ∃ t : FieldType, t.IsReadFrom v := by
  obtain ⟨entries, rfl, ⟨tag, htag, hlookup⟩, hpayload⟩ := isValid_fieldType_iff.mp h
  have hfield (tag key : String) {s : Value} (hp : (tag, key, s) ∈ typePayloads)
      (hl : Value.lookup "type" entries = some (.str tag)) :
      Accepts projectReferences projectReferences.length (ofValue s)
        ((Value.map entries).field key) :=
    (hpayload _ hp hl).accepts_field List.mem_cons_self List.mem_cons_self
  have hpath {v : Value} (hv : IsValid "elementPath" v) :
      ∃ path, ElementPath.load v = some path := by
    rw [ElementPath.load, if_pos (IsValid.elementPath hv)]
    exact ⟨_, rfl⟩
  rw [typeTags, List.mem_append] at htag
  -- A tag with a payload is valid only if the payload is, which is what its loader asks for.
  rcases htag with htag | htag
  · obtain ⟨p, -, rfl⟩ := List.mem_map.mp htag
    exact ⟨.primitive p, .primitive p hlookup⟩
  · simp only [List.mem_cons, List.not_mem_nil, or_false] at htag
    rcases htag with rfl | rfl | rfl | rfl
    · have hvalid : IsValid "elementPath" ((Value.map entries).field "entity") :=
        hfield "TObject" "entity" (by simp [typePayloads]) hlookup
      obtain ⟨path, hload⟩ := hpath hvalid
      exact ⟨.object path, .object hlookup hvalid hload⟩
    · have hvalid : IsValid "elementPath" ((Value.map entries).field "enu") :=
        hfield "TEnum" "enu" (by simp [typePayloads]) hlookup
      obtain ⟨path, hload⟩ := hpath hvalid
      exact ⟨.enumeration path, .enumeration hlookup hvalid hload⟩
    · have hlt : sizeOf ((Value.map entries).field "member") < sizeOf (Value.map entries) :=
        sizeOf_field_lt _ fun hnil ↦ by rw [hnil] at hlookup; cases hlookup
      obtain ⟨t, ht⟩ := exists_isReadFrom_of_isValid_fieldType
        (hfield "TList" "member" (by simp [typePayloads]) hlookup)
      exact ⟨.list t, .list hlookup ht⟩
    · obtain ⟨t, ht⟩ := hasType_string_iff.mp (accepts_ofType_iff.mp
        (hfield "TUnknown" "unknown" (by simp [typePayloads]) hlookup))
      exact ⟨.unknown (.str t), .unknown hlookup ht⟩
termination_by sizeOf v

/-- A valid type of a field is read from what it is loaded from. -/
theorem isReadFrom_of_isValid_fieldType {v : Value} {t : FieldType} (hvalid : IsValid "fieldType" v)
    (h : (FieldType.load v).value = some t) : t.IsReadFrom v := by
  obtain ⟨t', ht'⟩ := exists_isReadFrom_of_isValid_fieldType hvalid
  cases ht'.load_eq.symm.trans h
  exact ht'

/-! ## Named children -/

section Children

variable {α : Type} {condition : Prop} {load : Value → Query (Option α)}

theorem settles_loadEntries (kind : NodeKind) {entries : List (Value × Value)}
    (h : ∀ e ∈ entries, Settles condition (fun _ ↦ True) (load e.2).answer) :
    Settles condition (fun _ ↦ True) (loadEntries kind load entries).answer := by
  induction entries with
  | nil => exact trivial
  | cons e entries ih =>
    obtain ⟨name, v⟩ := e
    have hrest := ih fun e he ↦ h e (List.mem_cons_of_mem _ he)
    rw [loadEntries, Query.answer_bind]
    refine (h _ List.mem_cons_self).bind fun found _ ↦ ?_
    cases found with
    | none => exact hrest
    | some item =>
      rw [Query.answer_bind]
      exact hrest.bind fun _ _ ↦ trivial

theorem settles_loadChildren (kind : NodeKind) {v : Value}
    (h : ∀ entries, v = .map entries →
      ∀ e ∈ entries, Settles condition (fun _ ↦ True) (load e.2).answer) :
    Settles condition (fun _ ↦ True) (loadChildren kind load v).answer := by
  cases v with
  | map entries => exact settles_loadEntries kind (h entries rfl)
  | _ => exact trivial

theorem decides_loadEntries (kind : NodeKind) {c : Value → Prop} {p : Value → Option α → Prop}
    {entries : List (Value × Value)}
    (h : ∀ e ∈ entries, Decides (c e.2) (p e.2) (load e.2).answer) :
    Decides (∀ e ∈ entries, c e.2) (fun _ ↦ True) (loadEntries kind load entries).answer := by
  induction entries with
  | nil => exact ⟨fun e he ↦ absurd he List.not_mem_nil, trivial⟩
  | cons e entries ih =>
    obtain ⟨name, v⟩ := e
    obtain ⟨hfirst, hothers⟩ := List.forall_mem_cons.mp h
    have hrest := ih hothers
    rw [loadEntries, Query.answer_bind, List.forall_mem_cons]
    refine hfirst.bind fun found _ ↦ ?_
    cases found with
    | none => exact hrest
    | some item =>
      rw [Query.answer_bind]
      exact hrest.bind_ok fun _ _ ↦ trivial

/-- Loading a valid table decides for its entries what loading a valid entry decides. -/
theorem decides_loadChildren (kind : NodeKind) {name : String} {v : Value} {c : Value → Prop}
    {p : Value → Option α → Prop} (hv : IsTableOf name v)
    (h : ∀ w, IsValid name w → Decides (c w) (p w) (load w).answer) :
    Decides (∀ e ∈ entriesOf v, c e.2) (fun _ ↦ True) (loadChildren kind load v).answer := by
  obtain ⟨entries, rfl, hvalid⟩ := hv
  exact decides_loadEntries kind fun e he ↦ h e.2 (hvalid e he)

end Children

/-! ## Nodes with settings -/

/-- Whether every setting of some nodes has a name that can be written. -/
def NamesSettings (nodes : List Value) : Prop := ∀ w ∈ nodes, w.namesSettings = true

/-- Whether the kind or the method of an entity is written with a point. -/
def isFloatWired (v : Value) : Bool := (v.field "type").isFloat || (v.field "method").isFloat

/-- The nodes of an enumeration that have their settings read when a valid one is loaded. -/
def enumerationNodes (v : Value) : List Value := (entriesOf (v.field "enumMap")).map (·.2) ++ [v]

/-- Those of an entity: none if it does not load. -/
def entityNodes (v : Value) : List Value :=
  if isFloatWired v then []
  else
    (entriesOf (v.field "fieldsLocal")).map (·.2) ++ (entriesOf (v.field "genericMap")).map (·.2) ++
      [v]

def moduleNodes (v : Value) : List Value :=
  (entriesOf (v.field "entities")).flatMap (fun e ↦ entityNodes e.2) ++
    (entriesOf (v.field "enums")).flatMap fun e ↦ enumerationNodes e.2

def projectNodes (v : Value) : List Value :=
  (entriesOf (v.field "modules")).flatMap fun m ↦ moduleNodes m.2

section

variable {ws us : List Value} {v : Value}

theorem namesSettings_append : NamesSettings (ws ++ us) ↔ NamesSettings ws ∧ NamesSettings us :=
  List.forall_mem_append

theorem namesSettings_singleton : NamesSettings [v] ↔ v.namesSettings = true :=
  List.forall_mem_singleton

theorem namesSettings_map {entries : List (Value × Value)} :
    NamesSettings (entries.map (·.2)) ↔ ∀ e ∈ entries, e.2.namesSettings = true :=
  List.forall_mem_map

theorem namesSettings_flatMap {entries : List (Value × Value)} {nodes : Value → List Value} :
    NamesSettings (entries.flatMap fun e ↦ nodes e.2) ↔ ∀ e ∈ entries, NamesSettings (nodes e.2) :=
  List.forall_mem_flatMap

theorem keysWritable_of_mem_field (h : v.keysWritable = true) (key : Text) :
    ∀ e ∈ entriesOf (v.field key), e.2.keysWritable = true :=
  fun _ he ↦ (writable_of_mem_entriesOf (Value.keysWritable_field h key) he).2

theorem namesSettings_enumerationNodes (h : v.keysWritable = true) :
    NamesSettings (enumerationNodes v) := by
  rw [enumerationNodes, namesSettings_append, namesSettings_map, namesSettings_singleton]
  exact ⟨fun e he ↦ namesSettings_of_keysWritable (keysWritable_of_mem_field h _ e he),
    namesSettings_of_keysWritable h⟩

theorem namesSettings_entityNodes (h : v.keysWritable = true) : NamesSettings (entityNodes v) := by
  rw [entityNodes]
  split
  next => exact fun w hw ↦ absurd hw List.not_mem_nil
  next =>
    rw [namesSettings_append, namesSettings_append, namesSettings_map, namesSettings_map,
      namesSettings_singleton]
    exact ⟨⟨fun e he ↦ namesSettings_of_keysWritable (keysWritable_of_mem_field h _ e he),
      fun e he ↦ namesSettings_of_keysWritable (keysWritable_of_mem_field h _ e he)⟩,
      namesSettings_of_keysWritable h⟩

theorem namesSettings_moduleNodes (h : v.keysWritable = true) : NamesSettings (moduleNodes v) := by
  rw [moduleNodes, namesSettings_append, namesSettings_flatMap, namesSettings_flatMap]
  exact ⟨fun e he ↦ namesSettings_entityNodes (keysWritable_of_mem_field h _ e he),
    fun e he ↦ namesSettings_enumerationNodes (keysWritable_of_mem_field h _ e he)⟩

theorem namesSettings_projectNodes (h : v.keysWritable = true) :
    NamesSettings (projectNodes v) := by
  rw [projectNodes, namesSettings_flatMap]
  exact fun e he ↦ namesSettings_moduleNodes (keysWritable_of_mem_field h _ e he)

end

/-! ## Nodes -/

section Nodes

variable {condition : Prop} {v : Value}

/-- A valid field loads exactly if its settings have names. -/
theorem decides_field (h : IsValid "field" v) :
    Decides (v.namesSettings = true) (fun f ↦ f.isSome = true) (Field.load v).answer := by
  obtain ⟨-, htype, ⟨isOptional, hoptional⟩, ⟨isPathParameter, hparameter⟩⟩ := h.field
  obtain ⟨t, hread⟩ := exists_isReadFrom_of_isValid_fieldType htype
  have ht := hread.load_eq
  have htypeMap := Value.isNull_eq_false_of_isMap hread.isMap
  have hmissing : v.missing Field.requiredKeys = [] := by
    simp only [Value.missing_eq_nil_iff, Field.requiredKeys, List.forall_mem_cons, List.not_mem_nil,
      false_implies, implies_true, and_true, hoptional, hparameter]
    exact ⟨htypeMap, rfl, rfl⟩
  rw [Field.load, if_neg (not_not_intro hmissing), Query.answer_bind, Query.answer_lift, ht]
  simp only [hoptional, hparameter]
  change Decides _ _ (Query.answer _)
  rw [Query.answer_bind]
  exact (decides_remarks v).bind_ok fun _ _ ↦ rfl

theorem settles_field (h : IsValid "field" v) (hkeys : condition → v.keysWritable = true) :
    Settles condition (fun f ↦ f.isSome = true) (Field.load v).answer :=
  (decides_field h).settles fun hc ↦ namesSettings_of_keysWritable (hkeys hc)

/-- A valid item of an enumeration loads exactly if its settings have names. -/
theorem decides_enumItem (h : IsValid "enumItem" v) :
    Decides (v.namesSettings = true) (fun i ↦ i.isSome = true) (EnumItem.load v).answer := by
  obtain ⟨x, hx⟩ : ∃ x, EnumItem.number? (v.field "value") = some x := by
    rcases h.enumItem.2 with ⟨n, hn⟩ | ⟨x, hx⟩
    · exact ⟨.int n, by rw [hn]; rfl⟩
    · exact ⟨.float x, by rw [hx]; rfl⟩
  rw [EnumItem.load, hx]
  simp only [Query.answer_bind]
  exact (decides_remarks v).bind_ok fun _ _ ↦ rfl

theorem settles_enumItem (h : IsValid "enumItem" v) (hkeys : condition → v.keysWritable = true) :
    Settles condition (fun i ↦ i.isSome = true) (EnumItem.load v).answer :=
  (decides_enumItem h).settles fun hc ↦ namesSettings_of_keysWritable (hkeys hc)

/-- A valid enumeration loads exactly if the settings in it have names. -/
theorem decides_enumeration (h : IsValid "enum" v) :
    Decides (NamesSettings (enumerationNodes v)) (fun e ↦ e.isSome = true)
      (Enumeration.load v).answer := by
  obtain ⟨-, hitems⟩ := h.enumeration
  have hmissing : v.missing Enumeration.requiredKeys = [] := by
    rw [Value.missing_eq_nil_iff, Enumeration.requiredKeys, List.forall_mem_singleton]
    exact hitems.isNull_eq_false
  have hchildren := decides_loadChildren .enumItem hitems fun _ hw ↦ decides_enumItem hw
  rw [enumerationNodes, namesSettings_append, namesSettings_map, namesSettings_singleton,
    Enumeration.load, if_neg (not_not_intro hmissing), Query.answer_bind]
  refine hchildren.bind fun items _ ↦ ?_
  rw [Query.answer_bind]
  exact (decides_remarks v).bind_ok fun _ _ ↦ rfl

theorem settles_enumeration (h : IsValid "enum" v) (hkeys : condition → v.keysWritable = true) :
    Settles condition (fun e ↦ e.isSome = true) (Enumeration.load v).answer :=
  (decides_enumeration h).settles fun hc ↦ namesSettings_enumerationNodes (hkeys hc)

/-- A valid method is read, unless it is written with a point. -/
theorem exists_answer_loadMethod (h : v = .null ∨
    ∃ w ∈ wholeNumbers 11 ++ [.null], listedSame w v = true) :
    ∃ found, (Entity.loadMethod v).answer = .ok found ∧ found.isSome = !v.isFloat := by
  have hnull : v = .null → ∃ found, (Entity.loadMethod v).answer = .ok found ∧
      found.isSome = !v.isFloat := by
    rintro rfl
    exact ⟨some none, rfl, rfl⟩
  rcases h with rfl | ⟨w, hw, hsame⟩
  · exact hnull rfl
  rcases List.mem_append.mp hw with hw | hw
  · rcases eq_int_or_isFloat_of_listed ⟨w, hw, hsame⟩ with ⟨k, hk, rfl⟩ | hfloat
    · obtain ⟨method, hmethod⟩ := Method.exists_ofWire? hk
      refine ⟨some (some method), ?_, rfl⟩
      rw [Entity.loadMethod, hmethod]
      rfl
    · cases v with
      | float x => exact ⟨none, rfl, rfl⟩
      | _ => cases hfloat
  · rw [List.mem_singleton] at hw
    rw [hw] at hsame
    cases v with
    | null => exact hnull rfl
    | _ => simp [listedSame, Value.same, Value.number?] at hsame

/-- A valid entity has all the keys that it needs. -/
theorem missing_eq_nil_of_isValid_entity (h : IsValid "entity" v) :
    v.missing Entity.requiredKeys = [] := by
  obtain ⟨-, htype, ⟨isAbstract, habstract⟩, -, hfields, hbindings⟩ := h.entity
  have htypeNull : (v.field "type").isNull = false := by
    rcases eq_int_or_isFloat_of_listed htype with ⟨k, -, hk⟩ | hfloat
    · rw [hk]
      rfl
    · cases hv : v.field "type" with
      | null => rw [hv] at hfloat; cases hfloat
      | _ => rfl
  simp only [Value.missing_eq_nil_iff, Entity.requiredKeys, List.forall_mem_cons, List.not_mem_nil,
    false_implies, implies_true, and_true, habstract]
  exact ⟨htypeNull, rfl, hfields.isNull_eq_false, hbindings.isNull_eq_false⟩

/-- A valid entity loads exactly when neither its kind nor its method is written with a point, and
then only if the settings in it have names. -/
theorem decides_entity (h : IsValid "entity" v) :
    Decides (NamesSettings (entityNodes v)) (fun e ↦ e.isSome = !isFloatWired v)
      (Entity.load v).answer := by
  obtain ⟨-, htype, ⟨isAbstract, habstract⟩, hmethod, hfields, hbindings⟩ := h.entity
  have hkind := eq_int_or_isFloat_of_listed htype
  have hmissing := missing_eq_nil_of_isValid_entity h
  have hunread (hwired : isFloatWired v = true) : NamesSettings (entityNodes v) := by
    rw [entityNodes, if_pos hwired]
    exact fun w hw ↦ absurd hw List.not_mem_nil
  rw [Entity.load, if_neg (not_not_intro hmissing), habstract]
  -- The kind is looked at first; only after a whole number does the method matter.
  rcases hkind with ⟨k, hk, htypeInt⟩ | hfloat
  · obtain ⟨kind, hkind⟩ := EntityKind.exists_ofWire? hk
    obtain ⟨found, hfound, hsome⟩ := exists_answer_loadMethod hmethod
    have hwired : isFloatWired v = (v.field "method").isFloat := by
      rw [isFloatWired, htypeInt]
      rfl
    rw [← hwired] at hsome
    rw [htypeInt, hkind]
    simp only [Query.answer_bind, hfound, ok_bind]
    cases found with
    | none =>
      have hpoint : isFloatWired v = true := by simpa using hsome.symm
      exact ⟨hunread hpoint, hsome⟩
    | some method =>
      have hwhole : isFloatWired v = false := by simpa using hsome.symm
      have hnodes : NamesSettings (entityNodes v) ↔
          (∀ e ∈ entriesOf (v.field "fieldsLocal"), e.2.namesSettings = true) ∧
            (∀ e ∈ entriesOf (v.field "genericMap"), e.2.namesSettings = true) ∧
              v.namesSettings = true := by
        rw [entityNodes, hwhole, if_neg Bool.false_ne_true, namesSettings_append,
          namesSettings_append, namesSettings_map, namesSettings_map, namesSettings_singleton,
          and_assoc]
      simp only [Query.answer_bind]
      refine Decides.congr ?_ hnodes.symm
      refine (decides_loadChildren .field hfields fun _ hw ↦ decides_field hw).bind
        fun fields _ ↦ ?_
      refine (decides_loadChildren .genericBinding hbindings
        fun _ hw ↦ decides_field hw).bind fun bindings _ ↦ ?_
      exact (decides_remarks v).bind_ok fun _ _ ↦ hsome
  · have hwired : isFloatWired v = true := by rw [isFloatWired, hfloat, Bool.true_or]
    cases hv : v.field "type" with
    | float x =>
      refine ⟨hunread hwired, ?_⟩
      rw [hwired]
      rfl
    | _ =>
      rw [hv] at hfloat
      cases hfloat

theorem settles_entity (h : IsValid "entity" v) (hkeys : condition → v.keysWritable = true) :
    Settles condition (fun e ↦ e.isSome = !isFloatWired v) (Entity.load v).answer :=
  (decides_entity h).settles fun hc ↦ namesSettings_entityNodes (hkeys hc)

/-- A valid module loads exactly if the settings in it have names, whatever its entities do. -/
theorem decides_module (h : IsValid "module" v) :
    Decides (NamesSettings (moduleNodes v)) (fun m ↦ m.isSome = true) (Module.load v).answer := by
  obtain ⟨-, hentities, henums⟩ := h.moduleNode
  have hmissing : v.missing Module.requiredKeys = [] := by
    rw [Value.missing_eq_nil_iff, Module.requiredKeys, List.forall_mem_singleton]
    exact hentities.isNull_eq_false
  rw [moduleNodes, namesSettings_append, namesSettings_flatMap, namesSettings_flatMap, Module.load,
    if_neg (not_not_intro hmissing), Query.answer_bind]
  refine (decides_loadChildren .entity hentities
    fun _ hw ↦ decides_entity hw).bind fun entities _ ↦ ?_
  rcases henums with hnull | htable
  · rw [hnull]
    exact ⟨fun e he ↦ absurd he List.not_mem_nil, rfl⟩
  · rw [htable.isNull_eq_false, if_neg Bool.false_ne_true]
    simp only [Query.answer_bind]
    exact (decides_loadChildren .enumeration htable
      fun _ hw ↦ decides_enumeration hw).bind_ok fun _ _ ↦ rfl

theorem settles_module (h : IsValid "module" v) (hkeys : condition → v.keysWritable = true) :
    Settles condition (fun m ↦ m.isSome = true) (Module.load v).answer :=
  (decides_module h).settles fun hc ↦ namesSettings_moduleNodes (hkeys hc)

/-- A valid document loads as a project exactly if the settings in it that are read have names,
whatever its entities do. -/
theorem decides_project (h : violations projectSchema v = []) :
    Decides (NamesSettings (projectNodes v)) (fun p ↦ p.isSome = true)
      (Project.load v).answer := by
  obtain ⟨-, hmodules⟩ := modules_of_violations_eq_nil h
  have hmissing : v.missing Project.requiredKeys = [] := by
    rw [Value.missing_eq_nil_iff, Project.requiredKeys, List.forall_mem_singleton]
    exact hmodules.isNull_eq_false
  rw [projectNodes, namesSettings_flatMap, Project.load, if_neg (not_not_intro hmissing),
    Query.answer_bind]
  exact (decides_loadChildren .moduleNode hmodules fun _ hw ↦ decides_module hw).bind_ok
    fun _ _ ↦ rfl

theorem settles_project (h : violations projectSchema v = [])
    (hkeys : condition → v.keysWritable = true) :
    Settles condition (fun p ↦ p.isSome = true) (Project.load v).answer :=
  (decides_project h).settles fun hc ↦ namesSettings_projectNodes (hkeys hc)

end Nodes

end EntityGraph
