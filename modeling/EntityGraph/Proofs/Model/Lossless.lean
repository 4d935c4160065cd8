import EntityGraph.Proofs.Check.Dropped
import EntityGraph.Proofs.Model.Reading
import EntityGraph.Proofs.Model.RoundTrip
import EntityGraph.Proofs.Schema.Parts

/-!
# Nothing of a valid document is lost

A valid document is loaded as a project, and the project is written as a document again. What the
schema declares is kept on the way, node by node: every declared key with a value is there again
with that value, every table has the same names in the same order, and what else is written are
defaults of keys that had no value.

`Keeps` compares two documents in this way. It goes down the two along the roles of their nodes: a
role says which keys a node declares and what is found under each of them, which for the type of a
field depends on its tag.
-/

namespace EntityGraph

open Schema
open Dropped (entriesOf)

/-! ## Roles of nodes -/

/-- What a mapping in a project document describes. -/
inductive NodeRole where
  | project | moduleNode | entity | enumeration | enumItem | field | fieldType | elementPath
  deriving DecidableEq, Repr

/-- What is found under a key: a value that is taken as it is, a node, or a table of nodes. -/
inductive Content where
  | plain
  | node (role : NodeRole)
  | table (role : NodeRole)
  deriving DecidableEq, Repr

namespace NodeRole

/-- The keys of remarks. -/
def remarks : List (String × Content) := [("comment", .plain), ("config", .plain)]

/-- The payload of a tag: its key and what it is. -/
def payload (tag : Value) : List (String × Content) :=
  match tag with
  | .str t =>
    if t = "TObject" then [("entity", .node .elementPath)]
    else if t = "TEnum" then [("enu", .node .elementPath)]
    else if t = "TList" then [("member", .node .fieldType)]
    else if t = "TUnknown" then [("unknown", .plain)]
    else []
  | _ => []

/-- The keys that a node of a role declares. -/
def declared (v : Value) : NodeRole → List (String × Content)
  | .project =>
    [("name", .plain), ("version", .plain), ("targetPackage", .plain),
      ("modules", .table .moduleNode)]
  | .moduleNode => [("entities", .table .entity), ("enums", .table .enumeration)]
  | .entity =>
    [("type", .plain), ("isAbstract", .plain), ("parent", .node .elementPath),
      ("response", .node .elementPath), ("path", .plain), ("method", .plain),
      ("fieldsLocal", .table .field), ("genericMap", .table .field)] ++ remarks
  | .enumeration => ("enumMap", .table .enumItem) :: remarks
  | .enumItem => [("value", .plain), ("realname", .plain)] ++ remarks
  | .field =>
    [("type", .node .fieldType), ("isOptional", .plain), ("isPathParameter", .plain),
      ("realname", .plain), ("fixedValue", .plain)] ++ remarks
  | .fieldType => ("type", .plain) :: payload (v.field "type")
  | .elementPath => [("module", .plain), ("name", .plain)]

/-- What is written for a key without a value. -/
def defaults : NodeRole → List (String × Value)
  | .project => [("name", .str ""), ("version", .str ""), ("targetPackage", .str "")]
  | .moduleNode => [("enums", .map [])]
  | .entity | .enumeration | .enumItem | .field => [("comment", .str "")]
  | .fieldType => []
  | .elementPath => [("module", .null), ("name", .null)]

end NodeRole

/-! ## What is kept -/

/-- Whether an entry of a written node stands for a declared key with a value, or is the default of
one without. -/
def IsAccounted (role : NodeRole) (v : Value) (entry : Value × Value) : Prop :=
  ∃ d ∈ role.declared v, entry.1 = .str d.1 ∧
    ((v.field d.1).isNull = false ∨ (d.1, entry.2) ∈ role.defaults)

/-- What the first value says is kept by the second. -/
inductive Keeps : Content → Value → Value → Prop where
  /-- A plain value stays the same. -/
  | plain (v : Value) : Keeps .plain v v
  /-- Of a node every declared key with a value is kept, and nothing is added but defaults. -/
  | node {role : NodeRole} {v w : Value} (isMap : v.isMap = true) (isMap' : w.isMap = true)
    (kept : ∀ d ∈ role.declared v, (v.field d.1).isNull = false →
      Keeps d.2 (v.field d.1) (w.field d.1))
    (accounted : ∀ entry ∈ entriesOf w, IsAccounted role v entry) : Keeps (.node role) v w
  | nil {role : NodeRole} : Keeps (.table role) (.map []) (.map [])
  /-- A table keeps its names in their order. -/
  | cons {role : NodeRole} {name v w : Value} {entries written : List (Value × Value)} :
    Keeps (.node role) v w → Keeps (.table role) (.map entries) (.map written) →
      Keeps (.table role) (.map ((name, v) :: entries)) (.map ((name, w) :: written))

/-! ## Entries -/

section Entries

variable {role : NodeRole} {v : Value} {key : String} {c : Content}

/-- An entry of a declared key with a value is accounted for. -/
theorem isAccounted_of_declared {w : Value} (hd : (key, c) ∈ role.declared v)
    (hv : (v.field key).isNull = false) : IsAccounted role v (.str key, w) :=
  ⟨(key, c), hd, rfl, Or.inl hv⟩

/-- An entry that repeats a declared key is accounted for if, without a value, it is a default. -/
theorem isAccounted_of_default {w : Value} (hd : (key, c) ∈ role.declared v)
    (hw : (v.field key).isNull = true → (key, w) ∈ role.defaults) :
    IsAccounted role v (.str key, w) := by
  cases hnull : (v.field key).isNull with
  | false => exact isAccounted_of_declared hd hnull
  | true => exact ⟨(key, c), hd, rfl, Or.inr (hw hnull)⟩

theorem isAccounted_optionalEntry (hd : (key, c) ∈ role.declared v) :
    ∀ entry ∈ optionalEntry key (v.field key), IsAccounted role v entry := by
  rw [optionalEntry]
  cases hnull : (v.field key).isNull with
  | true => simp
  | false =>
    intro entry hentry
    rw [if_neg Bool.false_ne_true, List.mem_singleton] at hentry
    rw [hentry]
    exact isAccounted_of_declared hd hnull

theorem isAccounted_someEntry {o : Option Value} (hd : (key, c) ∈ role.declared v)
    (ho : o.isSome = true → (v.field key).isNull = false) :
    ∀ entry ∈ someEntry key o, IsAccounted role v entry := by
  cases o with
  | none => exact fun entry hentry ↦ absurd hentry List.not_mem_nil
  | some w =>
    intro entry hentry
    rw [someEntry, List.mem_singleton] at hentry
    rw [hentry]
    exact isAccounted_of_declared hd (ho rfl)

end Entries

/-! ## Tables -/

/-- A table keeps what each of its entries keeps, if all of them load. -/
theorem keeps_table {α : Type} {role : NodeRole} {kind : NodeKind}
    {load : Value → Query (Option α)} {write : α → Value} {entries : List (Value × Value)}
    {t : Table α} (h : (loadEntries kind load entries).answer = .ok t)
    (hkeeps : ∀ e ∈ entries, ∃ item, (load e.2).answer = .ok (some item) ∧
      Keeps (.node role) e.2 (write item)) :
    Keeps (.table role) (.map entries) (.map (t.mapItems write)) := by
  induction entries generalizing t with
  | nil =>
    cases h
    exact .nil
  | cons e entries ih =>
    obtain ⟨name, v⟩ := e
    -- Every entry loads, so no name is left out and the two tables stay in step.
    obtain ⟨⟨item, hitem, hnode⟩, hrest⟩ := List.forall_mem_cons.mp hkeeps
    rw [loadEntries, Query.answer_bind, hitem, ok_bind] at h
    simp only [Query.answer_bind] at h
    obtain ⟨rest, hloaded, h⟩ := bind_eq_ok_iff.mp h
    cases h
    exact .cons hnode (ih hloaded hrest)

/-! ## Remarks -/

namespace Settings

theorem exists_of_entryKeysAreTexts {entries : List (Value × Value)}
    (hkeys : Value.entryKeysAreTexts entries = true) :
    ∃ s : Settings, entries = s.map fun e ↦ (.str e.1, e.2) := by
  induction entries with
  | nil => exact ⟨[], rfl⟩
  | cons e entries ih =>
    obtain ⟨key, v⟩ := e
    rw [Value.entryKeysAreTexts, Bool.and_eq_true, Bool.and_eq_true] at hkeys
    obtain ⟨t, rfl⟩ := Value.isText_iff.mp hkeys.1.1
    obtain ⟨s, rfl⟩ := ih hkeys.2
    exact ⟨(t, v) :: s, rfl⟩

/-- Settings that were loaded from different texts are written as they were. -/
theorem toDocument_of_ofEntries {entries : List (Value × Value)} {s : Settings}
    (hkeys : Value.entryKeysAreTexts entries = true)
    (hdiffer : Value.entryKeysDiffer entries = true) (h : ofEntries entries = .ok s) :
    s.toDocument = .map entries := by
  obtain ⟨named, rfl⟩ := exists_of_entryKeysAreTexts hkeys
  -- Different keys are different texts, so no setting replaces an earlier one.
  have hregular : named.IsRegular := by
    have hpairs := (Value.entryKeysDiffer_iff.mp hdiffer).1
    rw [IsRegular, List.Nodup, List.pairwise_map]
    refine (List.pairwise_map.mp hpairs).imp fun {e f} hsame heq ↦ ?_
    rw [heq, Value.same_self rfl] at hsame
    cases hsame
  rw [ofEntries_toDocument hregular] at h
  cases h
  rfl

end Settings

/-- Where remarks stand in the value they were loaded from. -/
structure Remarks.IsReadFrom (r : Remarks) (v : Value) : Prop where
  comment : v.field "comment" = .null ∧ r.comment = [] ∨ v.field "comment" = .str r.comment
  settings : v.field "config" = .null ∧ r.settings = none ∨
    ∃ s, r.settings = some s ∧ v.field "config" = s.toDocument

theorem Remarks.isReadFrom_of_load {v : Value} {r : Remarks} (hremarks : HasRemarks v)
    (hkeys : v.keysAreTexts = true) (hdiffer : v.keysDiffer = true)
    (h : (load v).answer = .ok r) : r.IsReadFrom v := by
  rw [load, Query.answer_bind, Query.answer_ofExcept] at h
  obtain ⟨settings, hsettings, h⟩ := bind_eq_ok_iff.mp h
  cases h
  constructor
  · rcases hremarks.comment with hnull | htext
    · exact Or.inl ⟨hnull, by rw [commentOf, hnull]⟩
    · obtain ⟨t, ht⟩ := Value.isText_iff.mp htext
      exact Or.inr (by rw [commentOf, ht])
  · rcases hremarks.config with hnull | hmap
    · rw [settingsOf, hnull] at hsettings
      cases hsettings
      exact Or.inl ⟨hnull, rfl⟩
    · have htexts := Value.keysAreTexts_field hkeys "config"
      have hdifferent := Value.keysDiffer_field hdiffer "config"
      cases hconfig : v.field "config" with
      | map entries =>
        rw [hconfig] at htexts hdifferent
        rw [settingsOf, hconfig] at hsettings
        obtain ⟨s, hs, hsome⟩ := bind_eq_ok_iff.mp hsettings
        cases hsome
        exact Or.inr ⟨s, rfl, (Settings.toDocument_of_ofEntries htexts hdifferent hs).symm⟩
      | _ => rw [hconfig] at hmap; cases hmap

section Remarks

variable {role : NodeRole} {r : Remarks} {v w : Value}

theorem keeps_remarks (h : r.IsReadFrom v) (hcomment : w.field "comment" = .str r.comment)
    (hconfig : w.field "config" = (r.settings.map Settings.toDocument).getD .null) :
    ∀ d ∈ NodeRole.remarks, (v.field d.1).isNull = false →
      Keeps d.2 (v.field d.1) (w.field d.1) := by
  simp only [NodeRole.remarks, List.forall_mem_cons, List.not_mem_nil, false_implies, implies_true,
    and_true]
  constructor
  · intro hnull
    rcases h.comment with ⟨hcomment', -⟩ | hcomment'
    · rw [hcomment'] at hnull
      cases hnull
    · rw [hcomment, ← hcomment']
      exact .plain _
  · intro hnull
    rcases h.settings with ⟨hconfig', -⟩ | ⟨s, hs, hconfig'⟩
    · rw [hconfig'] at hnull
      cases hnull
    · rw [hconfig, hs, Option.map_some, Option.getD_some, ← hconfig']
      exact .plain _

theorem isAccounted_remarks (h : r.IsReadFrom v) (hd : ∀ d ∈ NodeRole.remarks, d ∈ role.declared v)
    (hdefault : ("comment", .str "") ∈ role.defaults) :
    ∀ entry ∈ r.entries, IsAccounted role v entry := by
  have hcomment := hd ("comment", .plain) (by simp [NodeRole.remarks])
  have hconfig := hd ("config", .plain) (by simp [NodeRole.remarks])
  rw [Remarks.entries, List.forall_mem_cons]
  constructor
  · refine isAccounted_of_default hcomment fun hnull ↦ ?_
    rcases h.comment with ⟨-, hempty⟩ | htext
    · rw [hempty]
      exact hdefault
    · rw [htext] at hnull
      cases hnull
  · rcases h.settings with ⟨-, hnone⟩ | ⟨s, hs, hs'⟩
    · rw [hnone]
      exact fun entry hentry ↦ absurd hentry List.not_mem_nil
    · rw [hs, List.forall_mem_singleton]
      exact isAccounted_of_declared hconfig (by rw [hs']; rfl)

/-- A node with remarks is kept if its own keys are and what it writes around the remarks is
accounted for. -/
theorem keeps_node_of_remarks (own : List (String × Content)) (before after : List (Value × Value))
    (hmap : v.isMap = true) (hdeclared : role.declared v = own ++ NodeRole.remarks)
    (hdefaults : role.defaults = [("comment", .str "")]) (hremarks : r.IsReadFrom v)
    (hcomment : (Value.map (before ++ r.entries ++ after)).field "comment" = .str r.comment)
    (hconfig : (Value.map (before ++ r.entries ++ after)).field "config" =
      (r.settings.map Settings.toDocument).getD .null)
    (hown : ∀ d ∈ own, (v.field d.1).isNull = false →
      Keeps d.2 (v.field d.1) ((Value.map (before ++ r.entries ++ after)).field d.1))
    (hbefore : ∀ entry ∈ before, IsAccounted role v entry)
    (hafter : ∀ entry ∈ after, IsAccounted role v entry) :
    Keeps (.node role) v (.map (before ++ r.entries ++ after)) := by
  have hsub : ∀ d ∈ NodeRole.remarks, d ∈ role.declared v := by
    intro d hd
    rw [hdeclared]
    exact List.mem_append_right _ hd
  have hdefault : ("comment", .str "") ∈ role.defaults := by
    rw [hdefaults]
    exact List.mem_cons_self
  refine .node hmap rfl ?_ ?_
  · rw [hdeclared, List.forall_mem_append]
    exact ⟨hown, keeps_remarks hremarks hcomment hconfig⟩
  · rw [entriesOf, List.forall_mem_append, List.forall_mem_append]
    exact ⟨⟨hbefore, isAccounted_remarks hremarks hsub hdefault⟩, hafter⟩

end Remarks

/-! ## Paths and types of fields -/

theorem keeps_elementPath {v : Value} {path : ElementPath} (h : ElementPath.load v = some path) :
    Keeps (.node .elementPath) v path.toDocument := by
  rw [ElementPath.load] at h
  split at h
  next hmap =>
    cases h
    refine .node hmap rfl ?_ ?_
    · simp only [NodeRole.declared, List.forall_mem_cons, List.not_mem_nil, false_implies,
        implies_true, and_true, ElementPath.toDocument, Value.field, Value.lookup]
      exact ⟨fun _ ↦ .plain _, fun _ ↦ .plain _⟩
    · have hdefault (key : String) (hd : (key, .plain) ∈ NodeRole.elementPath.declared v)
          (hnull : (key, .null) ∈ NodeRole.elementPath.defaults) :
          IsAccounted .elementPath v (.str key, v.field key) := by
        refine isAccounted_of_default hd fun hv ↦ ?_
        rw [Value.isNull_iff.mp hv]
        exact hnull
      simp only [ElementPath.toDocument, entriesOf, List.forall_mem_cons, List.not_mem_nil,
        false_implies, implies_true, and_true]
      exact ⟨hdefault "module" (by simp [NodeRole.declared]) (by simp [NodeRole.defaults]),
        hdefault "name" (by simp [NodeRole.declared]) (by simp [NodeRole.defaults])⟩
  next => cases h

/-- A type with a payload keeps its tag, and its payload as far as that is kept. -/
theorem keeps_tagged {entries : List (Value × Value)} {tag key : String} {c : Content} {w : Value}
    (htag : Value.lookup "type" entries = some (.str tag))
    (hpayload : NodeRole.payload (.str tag) = [(key, c)]) (hkey : (key : Text) ≠ "type")
    (hnull : ((Value.map entries).field key).isNull = false)
    (hkeeps : Keeps c ((Value.map entries).field key) w) :
    Keeps (.node .fieldType) (.map entries) (.map [(.str "type", .str tag), (.str key, w)]) := by
  have htype : (Value.map entries).field "type" = .str tag := by
    rw [Value.field, htag, Option.getD_some]
  have hdeclared : NodeRole.declared (.map entries) .fieldType = [("type", .plain), (key, c)] := by
    rw [NodeRole.declared, htype, hpayload]
  refine .node rfl rfl ?_ ?_
  · rw [hdeclared]
    simp only [List.forall_mem_cons, List.not_mem_nil, false_implies, implies_true, and_true]
    have hwritten : (Value.map [(.str "type", .str tag), (.str key, w)]).field key = w := by
      simp [Value.field, Value.lookup, hkey.symm]
    rw [hwritten, htype]
    exact ⟨fun _ ↦ .plain _, fun _ ↦ hkeeps⟩
  · simp only [entriesOf, List.forall_mem_cons, List.not_mem_nil, false_implies, implies_true,
      and_true]
    refine ⟨isAccounted_of_declared (c := .plain) ?_ ?_, isAccounted_of_declared (c := c) ?_ hnull⟩
    · rw [hdeclared]
      exact List.mem_cons_self
    · rw [htype]
      rfl
    · rw [hdeclared]
      exact List.mem_cons_of_mem _ List.mem_cons_self

/-- The type of a field is kept, at any depth of lists. -/
theorem keeps_fieldType {v : Value} {t : FieldType} (h : t.IsReadFrom v) :
    Keeps (.node .fieldType) v t.toDocument := by
  induction h with
  | @primitive entries p htag =>
    have htype : (Value.map entries).field "type" = .str p.tag := by
      rw [Value.field, htag, Option.getD_some]
    have hdeclared : NodeRole.declared (.map entries) .fieldType = [("type", .plain)] := by
      rw [NodeRole.declared, htype]
      cases p <;> simp [NodeRole.payload, Primitive.tag]
    refine .node rfl rfl ?_ ?_
    · rw [hdeclared, List.forall_mem_singleton, htype]
      exact fun _ ↦ .plain _
    · rw [FieldType.toDocument, entriesOf, List.forall_mem_singleton]
      refine isAccounted_of_declared (c := .plain) ?_ ?_
      · rw [hdeclared]
        exact List.mem_cons_self
      · rw [htype]
        rfl
  | object htag hvalid hpath =>
    exact keeps_tagged htag (by simp [NodeRole.payload]) (by decide)
      (Value.isNull_eq_false_of_isMap hvalid.elementPath) (keeps_elementPath hpath)
  | enumeration htag hvalid hpath =>
    exact keeps_tagged htag (by simp [NodeRole.payload]) (by decide)
      (Value.isNull_eq_false_of_isMap hvalid.elementPath) (keeps_elementPath hpath)
  | list htag hmember ih =>
    exact keeps_tagged htag (by simp [NodeRole.payload]) (by decide)
      (Value.isNull_eq_false_of_isMap hmember.isMap) ih
  | unknown htag hparameter =>
    refine keeps_tagged (c := .plain) htag (by simp [NodeRole.payload]) (by decide) ?_ ?_
    · rw [hparameter]
      rfl
    · rw [hparameter]
      exact .plain _

/-! ## Nodes -/

section Nodes

variable {v : Value}

theorem Keeps.of_eq {w : Value} (h : w = v) : Keeps .plain v w := by
  rw [h]
  exact .plain v

/-- The remarks of a valid node that was loaded stand where they were. -/
theorem isReadFrom_remarks {d : NodeDefinition} {r : Remarks} (hvalid : IsValid d.name v)
    (hd : d ∈ nodeDefinitions) (hremarks : ∀ p ∈ remarkProperties, p ∈ d.properties)
    (hkeys : v.keysAreTexts = true) (hdiffer : v.keysDiffer = true)
    (h : (Remarks.load v).answer = .ok r) : r.IsReadFrom v :=
  Remarks.isReadFrom_of_load (hvalid.remarks hd hremarks) hkeys hdiffer h

theorem EnumItem.eq_numberDocument {x : Number} (h : number? v = some x) :
    v = numberDocument x := by
  cases v with
  | int n => cases h; rfl
  | float x => cases h; rfl
  | _ => cases h

theorem keeps_enumItem (hvalid : IsValid "enumItem" v) (hkeys : v.keysAreTexts = true)
    (hdiffer : v.keysDiffer = true) :
    ∃ i, (EnumItem.load v).answer = .ok (some i) ∧ Keeps (.node .enumItem) v i.toDocument := by
  obtain ⟨i, hload⟩ :=
    (settles_enumItem hvalid id).exists_some (Value.keysWritable_of_keysAreTexts hkeys)
  refine ⟨i, hload, ?_⟩
  have hread := EnumItem.isReadFrom_of_load hload
  have hremarks := isReadFrom_remarks (d := enumItemDefinition) hvalid (by simp [nodeDefinitions])
    (fun _ hp ↦ List.mem_append_right _ hp) hkeys hdiffer hread.remarks
  have hvalue := EnumItem.eq_numberDocument hread.value
  have hnull : (v.field "value").isNull = false := by
    rcases hvalid.enumItem.2 with ⟨n, hn⟩ | ⟨x, hx⟩
    · rw [hn]
      rfl
    · rw [hx]
      rfl
  rw [EnumItem.toDocument, hread.realname]
  refine keeps_node_of_remarks _ [_] _ hvalid.enumItem.1 rfl rfl hremarks ?_ ?_ ?_ ?_ ?_
  · simp [Value.field, Value.lookup]
  · simp [Value.field, Value.lookup]
  · simp only [List.forall_mem_cons, List.not_mem_nil, false_implies, implies_true, and_true]
    refine ⟨fun _ ↦ .of_eq ?_, fun _ ↦ .of_eq ?_⟩
    · rw [hvalue]
      simp [Value.field, Value.lookup]
    · simp [Value.field, Value.lookup]
  · rw [List.forall_mem_singleton]
    exact isAccounted_of_declared (c := .plain) (by simp [NodeRole.declared]) hnull
  · exact isAccounted_optionalEntry (c := .plain) (by simp [NodeRole.declared])

/-- The table of a valid container is kept if all its entries are. -/
theorem keeps_children {α : Type} {role : NodeRole} {kind : NodeKind} {name : String}
    {load : Value → Query (Option α)} {write : α → Value} {t : Table α}
    (hvalid : IsTableOf name v) (hkeys : v.keysAreTexts = true) (hdiffer : v.keysDiffer = true)
    (h : (loadChildren kind load v).answer = .ok t)
    (hkeeps : ∀ e ∈ entriesOf v, IsValid name e.2 → e.2.keysAreTexts = true →
      e.2.keysDiffer = true → ∃ item, (load e.2).answer = .ok (some item) ∧
        Keeps (.node role) e.2 (write item)) :
    Keeps (.table role) v (.map (t.mapItems write)) := by
  obtain ⟨entries, rfl, hentries⟩ := hvalid
  refine keeps_table h fun e he ↦ hkeeps e he (hentries e he) ?_ ?_
  · exact (Value.entryKeysAreTexts_iff.mp hkeys e he).2
  · exact ((Value.entryKeysDiffer_iff.mp hdiffer).2 e he).2

theorem keeps_enumeration (hvalid : IsValid "enum" v) (hkeys : v.keysAreTexts = true)
    (hdiffer : v.keysDiffer = true) :
    ∃ e, (Enumeration.load v).answer = .ok (some e) ∧
      Keeps (.node .enumeration) v e.toDocument := by
  obtain ⟨e, hload⟩ :=
    (settles_enumeration hvalid id).exists_some (Value.keysWritable_of_keysAreTexts hkeys)
  refine ⟨e, hload, ?_⟩
  have hread := Enumeration.isReadFrom_of_load hload
  obtain ⟨hmap, htable⟩ := hvalid.enumeration
  have hremarks := isReadFrom_remarks (d := enumDefinition) hvalid (by simp [nodeDefinitions])
    (fun _ hp ↦ List.mem_cons_of_mem _ hp) hkeys hdiffer hread.remarks
  have hitems : Keeps (.table .enumItem) (v.field "enumMap")
      (.map (e.items.mapItems EnumItem.toDocument)) :=
    keeps_children htable (Value.keysAreTexts_field hkeys _) (Value.keysDiffer_field hdiffer _)
      hread.items fun _ _ hw ↦ keeps_enumItem hw
  rw [Enumeration.toDocument, ← List.append_nil (_ :: _)]
  refine keeps_node_of_remarks [_] [_] [] hmap rfl rfl hremarks ?_ ?_ ?_ ?_ ?_
  · simp [Value.field, Value.lookup]
  · simp [Value.field, Value.lookup]
  · rw [List.forall_mem_singleton]
    intro _
    simpa [Value.field, Value.lookup] using hitems
  · rw [List.forall_mem_singleton]
    exact isAccounted_of_declared (c := .table .enumItem) (by simp [NodeRole.declared])
      htable.isNull_eq_false
  · exact fun _ h ↦ absurd h List.not_mem_nil

theorem keeps_field (hvalid : IsValid "field" v) (hkeys : v.keysAreTexts = true)
    (hdiffer : v.keysDiffer = true) :
    ∃ f, (Field.load v).answer = .ok (some f) ∧ Keeps (.node .field) v f.toDocument := by
  obtain ⟨f, hload⟩ :=
    (settles_field hvalid id).exists_some (Value.keysWritable_of_keysAreTexts hkeys)
  refine ⟨f, hload, ?_⟩
  have hread := Field.isReadFrom_of_load hload
  have hremarks := isReadFrom_remarks (d := fieldDefinition) hvalid (by simp [nodeDefinitions])
    (fun _ hp ↦ List.mem_append_right _ hp) hkeys hdiffer hread.remarks
  have htype := keeps_fieldType (isReadFrom_of_isValid_fieldType hvalid.field.2.1 hread.type)
  have hnull := Value.missing_eq_nil_iff.mp hread.missing
  rw [Field.toDocument, hread.realname, hread.fixedValue, List.append_assoc]
  refine keeps_node_of_remarks _ [_, _, _] _ hvalid.field.1 rfl rfl hremarks ?_ ?_ ?_ ?_ ?_
  · simp [Value.field, Value.lookup]
  · simp [Value.field, Value.lookup]
  · simp only [List.forall_mem_cons, List.not_mem_nil, false_implies, implies_true, and_true]
    refine ⟨fun _ ↦ ?_, fun _ ↦ .of_eq ?_, fun _ ↦ .of_eq ?_, fun _ ↦ .of_eq ?_, fun _ ↦ .of_eq ?_⟩
    · simpa [Value.field, Value.lookup] using htype
    · rw [hread.isOptional]
      simp [Value.field, Value.lookup]
    · rw [hread.isPathParameter]
      simp [Value.field, Value.lookup]
    · simp [Value.field, Value.lookup]
    · simp [Value.field, Value.lookup]
  · simp only [List.forall_mem_cons, List.not_mem_nil, false_implies, implies_true, and_true]
    have hrequired (key : String) (c : Content) (hd : (key, c) ∈ NodeRole.field.declared v)
        (hkey : (key : Text) ∈ Field.requiredKeys) (w : Value) :
        IsAccounted .field v (.str key, w) :=
      isAccounted_of_declared hd (hnull _ hkey)
    refine ⟨hrequired "type" (.node .fieldType) ?_ ?_ _, hrequired "isOptional" .plain ?_ ?_ _,
      hrequired "isPathParameter" .plain ?_ ?_ _⟩
    all_goals simp [NodeRole.declared, Field.requiredKeys]
  · rw [List.forall_mem_append]
    exact ⟨isAccounted_optionalEntry (c := .plain) (by simp [NodeRole.declared]),
      isAccounted_optionalEntry (c := .plain) (by simp [NodeRole.declared])⟩

theorem EntityKind.eq_int_of_ofWire? {kind : EntityKind} (h : ofWire? v = some kind) :
    v = .int kind.toWire := by
  obtain ⟨n, hn, hfind⟩ := Option.bind_eq_some_iff.mp h
  have hwire : kind.toWire = n := by simpa using List.find?_some hfind
  cases v with
  | int m => cases hn; rw [hwire]
  | _ => cases hn

theorem Method.eq_int_of_ofWire? {method : Method} (h : ofWire? v = some method) :
    v = .int method.toWire := by
  obtain ⟨n, hn, hfind⟩ := Option.bind_eq_some_iff.mp h
  have hwire : method.toWire = n := by simpa using List.find?_some hfind
  cases v with
  | int m => cases hn; rw [hwire]
  | _ => cases hn

/-- A method that was loaded is the number it was loaded from, or there was none. -/
theorem Entity.field_of_loadMethod {found : Option Method}
    (h : (loadMethod v).answer = .ok (some found)) :
    v = (found.map fun m ↦ Value.int m.toWire).getD .null := by
  rw [loadMethod] at h
  split at h
  next hnull =>
    cases h
    exact Value.isNull_iff.mp hnull
  next =>
    split at h
    next method hmethod =>
      cases h
      exact Method.eq_int_of_ofWire? hmethod
    next => cases h

/-- An optional path of an entity is kept where it is written. -/
theorem keeps_optionalPath {w : Value} {path : Option ElementPath}
    (hvalid : v = .null ∨ IsValid "elementPath" v) (hpath : path = ElementPath.load v)
    (hw : w = (path.map ElementPath.toDocument).getD .null) (hnull : v.isNull = false) :
    Keeps (.node .elementPath) v w := by
  rcases hvalid with rfl | hvalid
  · cases hnull
  · have hload : ElementPath.load v = some ⟨v.field "module", v.field "name"⟩ := by
      rw [ElementPath.load, if_pos (IsValid.elementPath hvalid)]
    rw [hload] at hpath
    rw [hw, hpath]
    exact keeps_elementPath hload

theorem keeps_entity (hvalid : IsValid "entity" v) (hkeys : v.keysAreTexts = true)
    (hdiffer : v.keysDiffer = true) (hwhole : isFloatWired v = false) :
    ∃ e, (Entity.load v).answer = .ok (some e) ∧ Keeps (.node .entity) v e.toDocument := by
  obtain ⟨e, hload⟩ : ∃ e, (Entity.load v).answer = .ok (some e) := by
    have hsettles : Settles True (fun e ↦ e.isSome = !isFloatWired v) (Entity.load v).answer :=
      settles_entity hvalid fun _ ↦ Value.keysWritable_of_keysAreTexts hkeys
    rw [hwhole] at hsettles
    exact hsettles.exists_some trivial
  refine ⟨e, hload, ?_⟩
  have hread := Entity.isReadFrom_of_load hload
  have hremarks := isReadFrom_remarks (d := entityDefinition) hvalid (by simp [nodeDefinitions])
    (fun _ hp ↦ List.mem_append_right _ hp) hkeys hdiffer hread.remarks
  obtain ⟨hmap, -, -, -, hfieldTable, hbindingTable⟩ := hvalid.entity
  have hnull := Value.missing_eq_nil_iff.mp hread.missing
  have hkind := EntityKind.eq_int_of_ofWire? hread.kind
  have hmethod := Entity.field_of_loadMethod hread.method
  have htable {kind : NodeKind} {key : Text} {t : Table Field}
      (hv : IsTableOf "field" (v.field key))
      (h : (loadChildren kind Field.load (v.field key)).answer = .ok t) :
      Keeps (.table .field) (v.field key) (.map (t.mapItems Field.toDocument)) :=
    keeps_children hv (Value.keysAreTexts_field hkeys _) (Value.keysDiffer_field hdiffer _) h
      fun _ _ hw ↦ keeps_field hw
  have hfields := htable hfieldTable hread.fields
  have hbindings := htable hbindingTable hread.bindings
  have hparent := keeps_optionalPath hvalid.paths.1 hread.parent rfl
  have hresponse := keeps_optionalPath hvalid.paths.2 hread.response rfl
  rw [Entity.toDocument, hread.path, List.append_assoc, List.append_assoc, List.append_assoc]
  refine keeps_node_of_remarks _ [_, _, _, _] _ hmap rfl rfl hremarks ?_ ?_ ?_ ?_ ?_
  · simp [Value.field, Value.lookup]
  · simp [Value.field, Value.lookup]
  · simp only [List.forall_mem_cons, List.not_mem_nil, false_implies, implies_true, and_true]
    refine ⟨fun _ ↦ .of_eq ?_, fun _ ↦ .of_eq ?_, fun h ↦ ?_, fun h ↦ ?_, fun _ ↦ .of_eq ?_,
      fun _ ↦ .of_eq ?_, fun _ ↦ ?_, fun _ ↦ ?_⟩
    · rw [hkind]
      simp [Value.field, Value.lookup]
    · rw [hread.isAbstract]
      simp [Value.field, Value.lookup]
    · simpa [Value.field, Value.lookup] using hparent h
    · simpa [Value.field, Value.lookup] using hresponse h
    · simp [Value.field, Value.lookup]
    · rw [hmethod]
      simp [Value.field, Value.lookup]
    · simpa [Value.field, Value.lookup] using hfields
    · simpa [Value.field, Value.lookup] using hbindings
  · simp only [List.forall_mem_cons, List.not_mem_nil, false_implies, implies_true, and_true]
    have hrequired (key : String) (c : Content) (hd : (key, c) ∈ NodeRole.entity.declared v)
        (hkey : (key : Text) ∈ Entity.requiredKeys) (w : Value) :
        IsAccounted .entity v (.str key, w) :=
      isAccounted_of_declared hd (hnull _ hkey)
    refine ⟨hrequired "type" .plain ?_ ?_ _, hrequired "isAbstract" .plain ?_ ?_ _,
      hrequired "fieldsLocal" (.table .field) ?_ ?_ _,
      hrequired "genericMap" (.table .field) ?_ ?_ _⟩
    all_goals simp [NodeRole.declared, Entity.requiredKeys]
  · have hpath (o : Option ElementPath) (key : String) (ho : o = ElementPath.load (v.field key))
        (hd : (key, .node .elementPath) ∈ NodeRole.entity.declared v) :
        ∀ entry ∈ someEntry key (o.map ElementPath.toDocument), IsAccounted .entity v entry := by
      refine isAccounted_someEntry hd fun hsome ↦ ?_
      rw [Option.isSome_map, ho, ElementPath.load] at hsome
      split at hsome
      next hmap => exact Value.isNull_eq_false_of_isMap hmap
      next => cases hsome
    have hwritten : (e.method.map fun m ↦ Value.int m.toWire).isSome = true →
        (v.field "method").isNull = false := by
      rw [hmethod]
      cases e.method with
      | none => exact fun h ↦ by cases h
      | some m => exact fun _ ↦ rfl
    rw [List.forall_mem_append, List.forall_mem_append, List.forall_mem_append]
    refine ⟨hpath _ _ hread.parent ?_, hpath _ _ hread.response ?_,
      isAccounted_optionalEntry (c := .plain) ?_, isAccounted_someEntry (c := .plain) ?_ hwritten⟩
    all_goals simp [NodeRole.declared]

theorem keeps_module (hvalid : IsValid "module" v) (hkeys : v.keysAreTexts = true)
    (hdiffer : v.keysDiffer = true)
    (hwhole : ∀ e ∈ entriesOf (v.field "entities"), isFloatWired e.2 = false) :
    ∃ m, (Module.load v).answer = .ok (some m) ∧ Keeps (.node .moduleNode) v m.toDocument := by
  obtain ⟨m, hload⟩ :=
    (settles_module hvalid id).exists_some (Value.keysWritable_of_keysAreTexts hkeys)
  refine ⟨m, hload, ?_⟩
  have hread := Module.isReadFrom_of_load hload
  obtain ⟨hmap, hentityTable, henums⟩ := hvalid.moduleNode
  have hentities : Keeps (.table .entity) (v.field "entities")
      (.map (m.entities.mapItems Entity.toDocument)) :=
    keeps_children hentityTable (Value.keysAreTexts_field hkeys _)
      (Value.keysDiffer_field hdiffer _) hread.entities fun e he hw hk hd ↦
        keeps_entity hw hk hd (hwhole e he)
  have henumerations (hnull : (v.field "enums").isNull = false) :
      Keeps (.table .enumeration) (v.field "enums")
        (.map (m.enumerations.mapItems Enumeration.toDocument)) := by
    rcases henums with hnone | htable
    · rw [hnone] at hnull
      cases hnull
    · exact keeps_children htable (Value.keysAreTexts_field hkeys _)
        (Value.keysDiffer_field hdiffer _) hread.enumerations fun _ _ hw ↦ keeps_enumeration hw
  have hdefault (hnull : (v.field "enums").isNull = true) : m.enumerations = [] := by
    have hempty := hread.enumerations
    rw [Value.isNull_iff.mp hnull] at hempty
    exact (Except.ok.inj hempty).symm
  refine .node hmap rfl ?_ ?_
  · simp only [NodeRole.declared, List.forall_mem_cons, List.not_mem_nil, false_implies,
      implies_true, and_true]
    refine ⟨fun _ ↦ ?_, fun hnull ↦ ?_⟩
    · simpa [Module.toDocument, Value.field, Value.lookup] using hentities
    · simpa [Module.toDocument, Value.field, Value.lookup] using henumerations hnull
  · simp only [Module.toDocument, entriesOf, List.forall_mem_cons, List.not_mem_nil, false_implies,
      implies_true, and_true]
    refine ⟨isAccounted_of_declared (c := .table .entity) ?_ hentityTable.isNull_eq_false,
      isAccounted_of_default (c := .table .enumeration) ?_ fun hnull ↦ ?_⟩
    · simp [NodeRole.declared]
    · simp [NodeRole.declared]
    · rw [hdefault hnull]
      exact List.mem_cons_self

/-- A label that is a text stays as it is, even if it is empty; in place of none there is the empty
text. -/
theorem label_of_isOptionalText (h : v.IsOptionalText) :
    Project.label v = if v.isNull = true then .str "" else v := by
  rcases h with rfl | htext
  · rfl
  · obtain ⟨t, rfl⟩ := Value.isText_iff.mp htext
    cases t with
    | nil => rfl
    | cons x t => rfl

end Nodes

open Dropped in
/-- Of a valid document nothing is lost that the schema declares: the document loads, and what is
written again keeps every declared value, the names of every table in their order, and holds nothing
else but defaults. -/
theorem Project.keeps_toDocument {document : Value}
    (h : structureIssues projectSchema document = .ok []) (hkeys : document.keysAreTexts = true)
    (hdiffer : document.keysDiffer = true) (hwhole : floatWired document = []) :
    ∃ p, (Project.load document).answer = .ok (some p) ∧
      Keeps (.node .project) document p.toDocument := by
  have hvalid := violations_eq_nil_of_structureIssues_eq_nil h
  obtain ⟨p, hload⟩ :=
    (settles_project hvalid id).exists_some (Value.keysWritable_of_keysAreTexts hkeys)
  refine ⟨p, hload, ?_⟩
  have hread := Project.isReadFrom_of_load hload
  obtain ⟨hmap, htable⟩ := modules_of_violations_eq_nil hvalid
  have hmodules : Keeps (.table .moduleNode) (document.field "modules")
      (.map (p.modules.mapItems Module.toDocument)) :=
    keeps_children htable (Value.keysAreTexts_field hkeys _) (Value.keysDiffer_field hdiffer _)
      hread.modules fun m hm hw hk hd ↦
        keeps_module hw hk hd (isFloatWired_eq_false_of_floatWired_eq_nil hwhole hm)
  have hlabel (key : String) (hkey : key ∈ ["name", "version", "targetPackage"]) :=
    label_of_isOptionalText (isOptionalText_label hvalid key hkey)
  have hkept (key : String) (hkey : key ∈ ["name", "version", "targetPackage"])
      (hnull : (document.field key).isNull = false) :
      Project.label (document.field key) = document.field key := by
    rw [hlabel key hkey, hnull, if_neg Bool.false_ne_true]
  rw [toDocument, hread.name, hread.version, hread.targetPackage]
  refine .node hmap rfl ?_ ?_
  · simp only [NodeRole.declared, List.forall_mem_cons, List.not_mem_nil, false_implies,
      implies_true, and_true]
    refine ⟨fun hn ↦ .of_eq ?_, fun hn ↦ .of_eq ?_, fun hn ↦ .of_eq ?_, fun _ ↦ ?_⟩
    · simpa [Value.field, Value.lookup] using hkept "name" (by simp) hn
    · simpa [Value.field, Value.lookup] using hkept "version" (by simp) hn
    · simpa [Value.field, Value.lookup] using hkept "targetPackage" (by simp) hn
    · simpa [Value.field, Value.lookup] using hmodules
  · have hdefault (key : String) (hkey : key ∈ ["name", "version", "targetPackage"])
        (hd : (key, .plain) ∈ NodeRole.project.declared document)
        (hempty : (key, .str "") ∈ NodeRole.project.defaults) :
        IsAccounted .project document (.str key, Project.label (document.field key)) := by
      refine isAccounted_of_default hd fun hnull ↦ ?_
      rw [hlabel key hkey, if_pos hnull]
      exact hempty
    simp only [entriesOf, List.forall_mem_cons, List.not_mem_nil, false_implies, implies_true,
      and_true]
    refine ⟨hdefault "name" ?_ ?_ ?_, hdefault "version" ?_ ?_ ?_,
      hdefault "targetPackage" ?_ ?_ ?_, isAccounted_of_declared (c := .table .moduleNode) ?_ ?_⟩
    all_goals simp [NodeRole.declared, NodeRole.defaults, htable.isNull_eq_false]

/-! ## A document with one field -/

/-- A field that says no more than it must. -/
def plainField : Value :=
  mapping [("type", mapping [("type", .str "TString")]), ("isOptional", .bool false),
    ("isPathParameter", .bool false)]

/-- An entity with one field. -/
def fieldEntity (name : Value) : Value :=
  mapping [("type", .int 0), ("isAbstract", .bool false),
    ("fieldsLocal", .map [(name, plainField)]), ("genericMap", mapping [])]

/-- A document with this entity alone. -/
def fieldDocument (name : Value) : Value :=
  mapping [("modules",
    mapping [("m", mapping [("entities", mapping [("A", fieldEntity name)])])])]

theorem isValid_plainField : IsValid "field" plainField := by
  have htype : IsValid "fieldType" (mapping [("type", .str "TString")]) := by
    refine isValid_fieldType_iff.mpr ⟨_, rfl, ⟨"TString", by decide, rfl⟩, ?_⟩
    simp [typePayloads, Value.lookup]
  refine (isValid_node_iff fieldDefinition (by simp [nodeDefinitions])).mpr ⟨_, rfl, ?_, ?_⟩
  · simp [fieldDefinition, Value.lookup]
  · simpa [fieldDefinition, remarkProperties, Value.lookup] using ⟨htype, accepts_boolean false⟩

theorem isValid_fieldEntity (name : Value) : IsValid "entity" (fieldEntity name) := by
  have hkind : Accepts projectReferences projectReferences.length
      (ofValue (mapping [("enum", .seq (wholeNumbers 3))])) (.int 0) := by
    refine accepts_enum_iff.mpr ⟨.int 0, ?_, by decide +kernel⟩
    exact List.mem_map.mpr ⟨0, by decide, rfl⟩
  have hfields : Accepts projectReferences projectReferences.length (ofValue (tableOf "field"))
      (.map [(name, plainField)]) :=
    accepts_table_iff.mpr ⟨_, rfl, by simpa using isValid_plainField⟩
  have hbindings : Accepts projectReferences projectReferences.length (ofValue (tableOf "field"))
      (mapping []) :=
    accepts_table_iff.mpr ⟨[], rfl, fun e he ↦ absurd he List.not_mem_nil⟩
  refine (isValid_node_iff entityDefinition (by simp [nodeDefinitions])).mpr ⟨_, rfl, ?_, ?_⟩
  · simp [entityDefinition, Value.lookup]
  · simpa [entityDefinition, remarkProperties, Value.lookup] using
      ⟨hkind, accepts_boolean false, hfields, hbindings⟩

/-- The document is valid, whatever the name of the field is. -/
theorem structureIssues_fieldDocument (name : Value) :
    structureIssues projectSchema (fieldDocument name) = .ok [] := by
  have hentities : IsTableOf "entity" (mapping [("A", fieldEntity name)]) :=
    ⟨_, rfl, by simpa using isValid_fieldEntity name⟩
  refine Dropped.structureIssues_of_isTableOf ⟨_, rfl, ?_⟩
  simpa using Dropped.isValid_module_of_isTableOf hentities

theorem Project.keeps_toDocument_fieldDocument :
    structureIssues projectSchema (fieldDocument (.str "f")) = .ok [] ∧
      ∃ p, (Project.load (fieldDocument (.str "f"))).answer = .ok (some p) ∧
        Keeps (.node .project) (fieldDocument (.str "f")) p.toDocument := by
  have hvalid := structureIssues_fieldDocument (.str "f")
  have hkeys : (fieldDocument (.str "f")).keysAreTexts = true := by decide +kernel
  have hdiffer : (fieldDocument (.str "f")).keysDiffer = true := by decide +kernel
  exact ⟨hvalid, Project.keeps_toDocument hvalid hkeys hdiffer rfl⟩

end EntityGraph
