import EntityGraph.Proofs.Model.Loading
import EntityGraph.Proofs.Model.RoundTrip
import EntityGraph.Proofs.Value.Reordering

/-!
# Loading documents in another order

A document and the same document in another order load alike: each loader answers on both, and what
it answers on one is what it answers on the other, but for the order of tables. Nodes whose own
tables keep their order, or have none, are the same as parts of larger nodes; of entities, modules
and projects `Reordered` says what is the same about them.

The keys of a document are texts that differ, so no loader meets a fault on it, and no entry hides
another.
-/

namespace EntityGraph

variable {α β γ δ : Type}

/-! ## Computations that answer alike -/

/-- Whether two computations both answer, with related answers. -/
def Agree (r : α → β → Prop) (x : Except Fault α) (y : Except Fault β) : Prop :=
  ∃ a b, x = .ok a ∧ y = .ok b ∧ r a b

namespace Agree

variable {r : α → β → Prop} {q : γ → δ → Prop} {x : Except Fault α} {y : Except Fault β}

theorem ok {a : α} {b : β} (h : r a b) : Agree r (.ok a) (.ok b) := ⟨a, b, rfl, rfl, h⟩

theorem bind {f : α → Except Fault γ} {g : β → Except Fault δ} (h : Agree r x y)
    (hfg : ∀ a b, r a b → Agree q (f a) (g b)) : Agree q (x >>= f) (y >>= g) := by
  obtain ⟨a, b, rfl, rfl, hab⟩ := h
  exact hfg a b hab

theorem imp {r' : α → β → Prop} (h : Agree r x y) (hr : ∀ a b, r a b → r' a b) :
    Agree r' x y := by
  obtain ⟨a, b, hx, hy, hab⟩ := h
  exact ⟨a, b, hx, hy, hr a b hab⟩

/-- Queries that take the same branch agree if the branches do. -/
theorem ite {c : Prop} [Decidable c] {a b : Query α} {a' b' : Query β}
    (hthen : c → Agree r a.answer a'.answer) (helse : ¬ c → Agree r b.answer b'.answer) :
    Agree r (if c then a else b).answer (if c then a' else b').answer := by
  by_cases hc : c
  · rw [if_pos hc, if_pos hc]
    exact hthen hc
  · rw [if_neg hc, if_neg hc]
    exact helse hc

end Agree

theorem rel_map {r : α → β → Prop} {q : γ → δ → Prop} {f : α → γ} {g : β → δ} {a : Option α}
    {b : Option β} (h : Option.Rel r a b) (hfg : ∀ x y, r x y → q (f x) (g y)) :
    Option.Rel q (a.map f) (b.map g) := by
  cases h with
  | none => exact .none
  | some hxy => exact .some (hfg _ _ hxy)

/-! ## Collecting -/

section Collecting

variable {r : α → β → Prop} {q : γ → δ → Prop} {s : List α} {t : List β}

/-- What a step finds at each member of a list, one after the other. -/
def collect (step : α → Except Fault (List γ)) : List α → Except Fault (List γ)
  | [] => .ok []
  | a :: rest => do
    let found ← step a
    return found ++ (← collect step rest)

/-- What a step finds, if it does not fail. -/
def foundBy (step : α → Except Fault (List γ)) (a : α) : List γ :=
  match step a with
  | .ok found => found
  | .error _ => []

theorem collect_eq_ok {step : α → Except Fault (List γ)}
    (h : ∀ a ∈ s, ∃ found, step a = .ok found) :
    collect step s = .ok (s.flatMap (foundBy step)) := by
  induction s with
  | nil => rfl
  | cons a rest ih =>
    obtain ⟨⟨found, hfound⟩, hrest⟩ := List.forall_mem_cons.mp h
    rw [collect, hfound, ok_bind, ih hrest, List.flatMap_cons, foundBy, hfound]
    rfl

/-- What is found at related members in some order is found altogether in some order. -/
theorem agree_collect {step : α → Except Fault (List γ)} {step' : β → Except Fault (List δ)}
    (h : Rearranged r s t) (hstep : ∀ a b, r a b → Agree (Rearranged q) (step a) (step' b)) :
    Agree (Rearranged q) (collect step s) (collect step' t) := by
  have hfirst : ∀ a ∈ s, ∃ found, step a = .ok found := by
    intro a ha
    obtain ⟨b, -, hab⟩ := h.exists_right ha
    obtain ⟨found, -, hfound, -⟩ := hstep a b hab
    exact ⟨found, hfound⟩
  have hsecond : ∀ b ∈ t, ∃ found, step' b = .ok found := by
    intro b hb
    obtain ⟨a, -, hab⟩ := h.exists_left hb
    obtain ⟨-, found, -, hfound, -⟩ := hstep a b hab
    exact ⟨found, hfound⟩
  rw [collect_eq_ok hfirst, collect_eq_ok hsecond]
  refine .ok (h.flatMap fun a b hab ↦ ?_)
  obtain ⟨found, found', hfound, hfound', hrearranged⟩ := hstep a b hab
  rw [foundBy, foundBy, hfound, hfound']
  exact hrearranged

end Collecting

/-! ## Tables -/

/-- Two tables with the same names, which are texts and differ, and related items, in any order. -/
structure Table.Reordered (r : α → β → Prop) (s : Table α) (t : Table β) : Prop where
  names : s.HasTextNames
  items : Rearranged (Entrywise r) s t

theorem Table.Reordered.nil {r : α → β → Prop} : Table.Reordered r [] [] where
  names := .nil
  items := .of_forall₂ .nil

section Entries

variable {kind : NodeKind} {load : Value → Query (Option α)}
  {entries entries' : List (Value × Value)} {t : Table α}

/-- What an entry adds to a table. -/
def tableEntry (load : Value → Query (Option α)) (e : Value × Value) :
    Except Fault (Table α) := do
  match ← (load e.2).answer with
  | none => return []
  | some item => return [(e.1, item)]

theorem answer_loadEntries_eq_collect (entries : List (Value × Value)) :
    (loadEntries kind load entries).answer = collect (tableEntry load) entries := by
  induction entries with
  | nil => rfl
  | cons e rest ih =>
    obtain ⟨name, v⟩ := e
    rw [loadEntries, Query.answer_bind, collect, ← ih, tableEntry]
    cases (load v).answer with
    | error fault => rfl
    | ok found =>
      rw [ok_bind, ok_bind]
      cases found with
      | none => exact (bind_pure (loadEntries kind load rest).answer).symm
      | some item =>
        dsimp only
        rw [Query.answer_bind]
        rfl

/-- The names of a table are keys of the entries that it was loaded from. -/
theorem hasTextNames_of_loadEntries (h : Table.HasTextNames entries)
    (ht : (loadEntries kind load entries).answer = .ok t) : t.HasTextNames := by
  refine h.sublist ?_
  clear h
  induction entries generalizing t with
  | nil =>
    cases ht
    exact .slnil
  | cons e rest ih =>
    obtain ⟨name, v⟩ := e
    rw [loadEntries, Query.answer_bind] at ht
    obtain ⟨found, -, ht⟩ := bind_eq_ok_iff.mp ht
    cases found with
    | none => exact (ih ht).cons _
    | some item =>
      rw [Query.answer_bind] at ht
      obtain ⟨others, hothers, ht⟩ := bind_eq_ok_iff.mp ht
      cases ht
      exact (ih hothers).cons_cons _

/-- Two entries of the same name that load alike. -/
def LoadAlike (load : Value → Query (Option α)) (r : α → α → Prop) (e f : Value × Value) : Prop :=
  e.1 = f.1 ∧ Agree (Option.Rel r) (load e.2).answer (load f.2).answer

variable {r : α → α → Prop}

/-- Entries that load alike make tables of related items, in whatever order they are. -/
theorem agree_loadEntries (h : Rearranged (LoadAlike load r) entries entries')
    (hnames : Table.HasTextNames entries) :
    Agree (Table.Reordered r) (loadEntries kind load entries).answer
      (loadEntries kind load entries').answer := by
  have hstep : ∀ e f, LoadAlike load r e f →
      Agree (Rearranged (Entrywise r)) (tableEntry load e) (tableEntry load f) := by
    rintro e f ⟨hname, hload⟩
    rw [tableEntry, tableEntry]
    refine hload.bind fun found found' hfound ↦ ?_
    cases hfound with
    | none => exact .ok (.of_forall₂ .nil)
    | some hitem => exact .ok (.of_forall₂ (.cons ⟨hname, hitem⟩ .nil))
  have hcollected := agree_collect h hstep
  rw [← @answer_loadEntries_eq_collect _ kind, ← @answer_loadEntries_eq_collect _ kind]
    at hcollected
  obtain ⟨t, t', ht, ht', hitems⟩ := hcollected
  exact ⟨t, t', ht, ht', hasTextNames_of_loadEntries hnames ht, hitems⟩

/-- Entries in the same order make tables in the same order. -/
theorem agree_loadEntries_of_forall₂ (h : List.Forall₂ (LoadAlike load r) entries entries') :
    Agree (List.Forall₂ (Entrywise r)) (loadEntries kind load entries).answer
      (loadEntries kind load entries').answer := by
  induction h with
  | nil => exact .ok .nil
  | @cons e f rest rest' hentry _ ih =>
    obtain ⟨hname, hload⟩ := hentry
    rw [loadEntries, loadEntries, Query.answer_bind, Query.answer_bind]
    refine hload.bind fun found found' hrel ↦ ?_
    cases hrel with
    | none => exact ih
    | some hitem =>
      rw [Query.answer_bind, Query.answer_bind]
      exact ih.bind fun _ _ hrest ↦ .ok (.cons ⟨hname, hitem⟩ hrest)

end Entries

section Children

variable {kind : NodeKind} {load : Value → Query (Option α)} {r : α → α → Prop}
  {role : Value.Role} {v w : Value}

theorem answer_loadChildren_of_not_isMap (h : ¬ v.isMap = true) :
    (loadChildren kind load v).answer = .ok [] := by
  cases v with
  | map entries => exact absurd rfl h
  | _ => rfl

/-- The entries of a mapping load alike in every order if its values do. -/
theorem Value.Reordered.exists_entries (h : v.Reordered role w) (hv : v.isKeyed = true)
    (hmap : v.isMap = true)
    (hload : ∀ key a b, a.Reordered (role.under key) b → a.isKeyed = true →
      Agree (Option.Rel r) (load a).answer (load b).answer) :
    ∃ entries entries', v = .map entries ∧ w = .map entries' ∧
      Table.HasTextNames entries ∧ Rearranged (LoadAlike load r) entries entries' ∧
      (role = .fields → List.Forall₂ (LoadAlike load r) entries entries') := by
  cases v with
  | map entries =>
    obtain ⟨entries', rfl, hentries, hfields⟩ := h.entries
    obtain ⟨hnames, hvalues⟩ := Value.entriesKeyed_iff.mp hv
    have hentry : ∀ e f, e ∈ entries → Value.ReorderedEntry role e f → LoadAlike load r e f :=
      fun e f he hef ↦ ⟨hef.1, hload e.1 e.2 f.2 hef.2 (hvalues e he)⟩
    refine ⟨entries, entries', rfl, rfl, hnames,
      hentries.mem.imp fun e f hef ↦ hentry e f hef.1 hef.2.2, ?_⟩
    intro hrole
    have hboth := (List.forall₂_and_left entries entries').mpr ⟨fun _ he ↦ he, hfields hrole⟩
    exact hboth.imp fun e f hef ↦ hentry e f hef.1 hef.2
  | _ => cases hmap

/-- The children of a value make the same table in any order of it. -/
theorem agree_loadChildren (h : v.Reordered role w) (hv : v.isKeyed = true)
    (hload : ∀ key a b, a.Reordered (role.under key) b → a.isKeyed = true →
      Agree (Option.Rel r) (load a).answer (load b).answer) :
    Agree (Table.Reordered r) (loadChildren kind load v).answer
      (loadChildren kind load w).answer := by
  by_cases hmap : v.isMap = true
  · obtain ⟨entries, entries', rfl, rfl, hnames, hentries, -⟩ := h.exists_entries hv hmap hload
    exact agree_loadEntries hentries hnames
  · rw [answer_loadChildren_of_not_isMap hmap, answer_loadChildren_of_not_isMap (h.isMap ▸ hmap)]
    exact .ok .nil

/-- The local fields of an entity make the same table in the same order. -/
theorem agree_loadChildren_inOrder (h : v.Reordered .fields w) (hv : v.isKeyed = true)
    (hload : ∀ key a b, a.Reordered (Value.Role.under .fields key) b → a.isKeyed = true →
      Agree (Option.Rel r) (load a).answer (load b).answer) :
    Agree (List.Forall₂ (Entrywise r)) (loadChildren kind load v).answer
      (loadChildren kind load w).answer := by
  by_cases hmap : v.isMap = true
  · obtain ⟨entries, entries', rfl, rfl, -, -, hentries⟩ := h.exists_entries hv hmap hload
    exact agree_loadEntries_of_forall₂ (hentries rfl)
  · rw [answer_loadChildren_of_not_isMap hmap, answer_loadChildren_of_not_isMap (h.isMap ▸ hmap)]
    exact .ok .nil

end Children

/-! ## Nodes that are the same -/

section Nodes

variable {role : Value.Role} {v w : Value}

/-- Entries with names that are texts are settings, one for each name. -/
theorem exists_settings_of_hasTextNames {entries : List (Value × Value)}
    (h : Table.HasTextNames entries) :
    ∃ s : Settings, s.IsRegular ∧ entries = s.map fun e ↦ (.str e.1, e.2) := by
  induction entries with
  | nil => exact ⟨[], List.nodup_nil, rfl⟩
  | cons e rest ih =>
    obtain ⟨key, v⟩ := e
    obtain ⟨hkey, hnew, hrest⟩ := Table.hasTextNames_cons.mp h
    obtain ⟨t, rfl⟩ := Value.isText_iff.mp hkey
    obtain ⟨s, hregular, rfl⟩ := ih hrest
    refine ⟨(t, v) :: s, List.nodup_cons.mpr ⟨?_, hregular⟩, rfl⟩
    intro hmem
    obtain ⟨e, he, rfl⟩ := List.mem_map.mp hmem
    exact hnew (Table.mem_names_of_mem (List.mem_map.mpr ⟨e, he, rfl⟩))

/-- The settings of entries whose names are texts that differ are written as these entries. -/
theorem exists_ofEntries {entries : List (Value × Value)} (h : Table.HasTextNames entries) :
    ∃ s, Settings.ofEntries entries = .ok s ∧ s.toDocument = .map entries := by
  obtain ⟨s, hregular, rfl⟩ := exists_settings_of_hasTextNames h
  exact ⟨s, Settings.ofEntries_toDocument hregular, rfl⟩

theorem commentOf_eq_of_reordered (h : v.Reordered role w) (hv : v.isKeyed = true) :
    Remarks.commentOf v = Remarks.commentOf w := by
  have hfield := h.field hv "comment"
  rw [Remarks.commentOf, Remarks.commentOf]
  generalize v.field "comment" = comment at hfield ⊢
  generalize w.field "comment" = comment' at hfield ⊢
  cases hfield <;> rfl

/-- Settings are compared without regard to order. -/
theorem agree_settingsOf (h : v.Reordered role w) (hv : v.isKeyed = true) :
    Agree (fun a b ↦ ∀ comment, Remarks.same ⟨comment, a⟩ ⟨comment, b⟩ = true)
      (Remarks.settingsOf v) (Remarks.settingsOf w) := by
  have hkeyed := Value.isKeyed_field hv "config"
  have hconfig := h.field hv "config"
  rw [Remarks.settingsOf, Remarks.settingsOf]
  generalize v.field "config" = config at hconfig hkeyed ⊢
  generalize w.field "config" = config' at hconfig ⊢
  have hnone (comment : Text) : Remarks.same ⟨comment, none⟩ ⟨comment, none⟩ = true := by
    rw [Remarks.same, beq_self_eq_true]
    rfl
  cases config with
  | map entries =>
    have hsame := hconfig.same hkeyed
    obtain ⟨entries', rfl, hentries, -⟩ := hconfig.entries
    have hnames := (Value.entriesKeyed_iff.mp hkeyed).1
    obtain ⟨s, hs, hdocument⟩ := exists_ofEntries hnames
    obtain ⟨s', hs', hdocument'⟩ :=
      exists_ofEntries (hentries.hasTextNames (fun _ _ hentry ↦ hentry.1) hnames)
    simp only [hs, hs']
    refine .ok fun comment ↦ ?_
    rw [Remarks.same, beq_self_eq_true, Bool.true_and]
    simp only [hdocument, hdocument', hsame]
  | _ => cases hconfig <;> exact .ok hnone

theorem agree_remarks (h : v.Reordered role w) (hv : v.isKeyed = true) :
    Agree (fun r s ↦ r.same s = true) (Remarks.load v).answer (Remarks.load w).answer := by
  rw [Remarks.load, Remarks.load, Query.answer_bind, Query.answer_bind]
  refine (agree_settingsOf h hv).bind fun a b hab ↦ .ok ?_
  rw [← commentOf_eq_of_reordered h hv]
  exact hab _

theorem rel_elementPath (h : v.Reordered role w) (hv : v.isKeyed = true) :
    Option.Rel (fun p q ↦ p.same q = true) (ElementPath.load v) (ElementPath.load w) := by
  rw [ElementPath.load, ElementPath.load, h.isMap]
  by_cases hmap : v.isMap = true
  · rw [if_pos hmap, if_pos hmap]
    refine .some ?_
    have hmodule := (h.field hv "module").same (Value.isKeyed_field hv "module")
    have hname := (h.field hv "name").same (Value.isKeyed_field hv "name")
    rw [ElementPath.same, hmodule, hname]
    rfl
  · rw [if_neg hmap, if_neg hmap]
    exact .none

/-- A tag is found under its key exactly if the key leads to it. -/
theorem Value.lookup_eq_str_iff {key t : Text} {entries : List (Value × Value)} :
    lookup key entries = some (.str t) ↔ (Value.map entries).field key = .str t := by
  rw [field]
  cases lookup key entries with
  | none => simp
  | some v => simp

theorem Primitive.same_self (p : Primitive) :
    FieldType.same (.primitive p) (.primitive p) = true := by
  rw [FieldType.same, beq_self_eq_true]

theorem load_of_no_tag {entries : List (Value × Value)}
    (h : ¬ ∃ tag, Value.lookup "type" entries = some (.str tag)) :
    (FieldType.load (.map entries)).value = none := by
  rw [FieldType.load]
  split
  next tag htag => exact absurd ⟨tag, htag⟩ h
  next => rfl

/-- Two mappings with the same tag describe the same type, if what they have under `member` does. -/
theorem rel_fieldType_of_tag {entries entries' : List (Value × Value)} {tag : Text}
    (h : (Value.map entries).Reordered role (.map entries'))
    (hv : (Value.map entries).isKeyed = true)
    (htag : Value.lookup "type" entries = some (.str tag))
    (htag' : Value.lookup "type" entries' = some (.str tag))
    (hmember : Option.Rel (fun t u ↦ t.same u = true)
      (FieldType.load ((Value.map entries).field "member")).value
      (FieldType.load ((Value.map entries').field "member")).value) :
    Option.Rel (fun t u ↦ t.same u = true) (FieldType.load (.map entries)).value
      (FieldType.load (.map entries')).value := by
  rw [FieldType.load, FieldType.load, htag, htag']
  dsimp only
  cases Primitive.ofTag? tag with
  | some p => exact .some p.same_self
  | none =>
    dsimp only
    by_cases hobject : tag = "TObject"
    · rw [if_pos hobject, if_pos hobject]
      exact rel_map (rel_elementPath (h.field hv "entity") (Value.isKeyed_field hv _))
        fun _ _ hpath ↦ hpath
    rw [if_neg hobject, if_neg hobject]
    by_cases henum : tag = "TEnum"
    · rw [if_pos henum, if_pos henum]
      exact rel_map (rel_elementPath (h.field hv "enu") (Value.isKeyed_field hv _))
        fun _ _ hpath ↦ hpath
    rw [if_neg henum, if_neg henum]
    by_cases hlist : tag = "TList"
    · rw [if_pos hlist, if_pos hlist, FieldType.loadMember_eq, FieldType.loadMember_eq]
      exact rel_map hmember fun _ _ hsame ↦ hsame
    rw [if_neg hlist, if_neg hlist]
    by_cases hunknown : tag = "TUnknown"
    · have hparameter := h.field hv "unknown"
      have hsame := hparameter.same (Value.isKeyed_field hv "unknown")
      rw [if_pos hunknown, if_pos hunknown]
      dsimp only [Logged.pure_value]
      rw [hparameter.isNull]
      by_cases hnull : ((Value.map entries).field "unknown").isNull = true
      · rw [if_pos hnull, if_pos hnull]
        exact .none
      · rw [if_neg hnull, if_neg hnull]
        exact .some hsame
    · rw [if_neg hunknown, if_neg hunknown]
      exact .none

/-- A value describes the same type in any order, at any depth of lists. -/
theorem rel_fieldType {role : Value.Role} {v w : Value} (h : v.Reordered role w)
    (hv : v.isKeyed = true) :
    Option.Rel (fun t u ↦ t.same u = true) (FieldType.load v).value (FieldType.load w).value := by
  cases v with
  | map entries =>
    obtain ⟨entries', rfl, -, -⟩ := h.entries
    have htype (tag : Text) : Value.lookup "type" entries = some (.str tag) ↔
        Value.lookup "type" entries' = some (.str tag) := by
      rw [Value.lookup_eq_str_iff, Value.lookup_eq_str_iff]
      exact (h.field hv "type").eq_iff_of_isLeaf rfl
    by_cases htag : ∃ tag, Value.lookup "type" entries = some (.str tag)
    · obtain ⟨tag, htag⟩ := htag
      have hlt : sizeOf ((Value.map entries).field "member") < sizeOf (Value.map entries) :=
        sizeOf_field_lt _ fun hnil ↦ by rw [hnil] at htag; cases htag
      -- A member is smaller than the list it is a member of.
      exact rel_fieldType_of_tag h hv htag ((htype tag).mp htag)
        (rel_fieldType (h.field hv "member") (Value.isKeyed_field hv _))
    · rw [load_of_no_tag htag, load_of_no_tag fun ⟨tag, h'⟩ ↦ htag ⟨tag, (htype tag).mpr h'⟩]
      exact .none
  | _ => cases h <;> exact .none
termination_by sizeOf v

theorem number?_of_reordered (h : v.Reordered role w) :
    EnumItem.number? w = EnumItem.number? v := by
  cases h <;> rfl

theorem agree_enumItem (h : v.Reordered role w) (hv : v.isKeyed = true) :
    Agree (Option.Rel fun i j ↦ i.same j = true) (EnumItem.load v).answer
      (EnumItem.load w).answer := by
  rw [EnumItem.load, EnumItem.load, number?_of_reordered (h.field hv "value")]
  cases EnumItem.number? (v.field "value") with
  | none => exact .ok .none
  | some n =>
    have hrealname := (h.field hv "realname").same (Value.isKeyed_field hv "realname")
    dsimp only
    rw [Query.answer_bind, Query.answer_bind]
    refine (agree_remarks h hv).bind fun r r' hremarks ↦ .ok (.some ?_)
    rw [EnumItem.same, Number.same_self, hrealname, hremarks]
    rfl

theorem agree_enumeration (h : v.Reordered role w) (hv : v.isKeyed = true) :
    Agree (Option.Rel fun d e ↦ d.same e = true) (Enumeration.load v).answer
      (Enumeration.load w).answer := by
  rw [Enumeration.load, Enumeration.load, h.missing hv]
  refine .ite (fun _ ↦ .ok .none) fun _ ↦ ?_
  rw [Query.answer_bind, Query.answer_bind]
  refine (agree_loadChildren (h.field hv "enumMap") (Value.isKeyed_field hv _)
    fun _ _ _ ↦ agree_enumItem).bind fun items items' hitems ↦ ?_
  rw [Query.answer_bind, Query.answer_bind]
  refine (agree_remarks h hv).bind fun r r' hremarks ↦ .ok (.some ?_)
  rw [Enumeration.same, hitems.items.same hitems.names, hremarks]
  rfl

/-- The flags of a field are truth values in both orders or in neither. -/
theorem agree_field (h : v.Reordered role w) (hv : v.isKeyed = true) :
    Agree (Option.Rel fun f g ↦ f.same g = true) (Field.load v).answer (Field.load w).answer := by
  rw [Field.load, Field.load, h.missing hv]
  refine .ite (fun _ ↦ .ok .none) fun _ ↦ ?_
  have hoptional (b : Bool) := (h.field hv "isOptional").eq_iff_of_isLeaf (x := .bool b) rfl
  have hparameter (b : Bool) := (h.field hv "isPathParameter").eq_iff_of_isLeaf (x := .bool b) rfl
  have hrealname := (h.field hv "realname").same (Value.isKeyed_field hv "realname")
  have hfixed := (h.field hv "fixedValue").same (Value.isKeyed_field hv "fixedValue")
  rw [Query.answer_bind, Query.answer_bind, Query.answer_lift, Query.answer_lift]
  refine (Agree.ok (rel_fieldType (h.field hv "type") (Value.isKeyed_field hv _))).bind
    fun t u htype ↦ ?_
  cases htype with
  | none => exact .ok .none
  | @some t u htype =>
    dsimp only
    by_cases hflags : ∃ a b, v.field "isOptional" = .bool a ∧ v.field "isPathParameter" = .bool b
    · obtain ⟨a, b, ha, hb⟩ := hflags
      rw [ha, hb, (hoptional a).mp ha, (hparameter b).mp hb]
      dsimp only
      rw [Query.answer_bind, Query.answer_bind]
      refine (agree_remarks h hv).bind fun r r' hremarks ↦ .ok (.some ?_)
      rw [Field.same, htype, hrealname, hfixed, hremarks]
      simp
    · split
      next a b ha hb => exact absurd ⟨a, b, ha, hb⟩ hflags
      next =>
        -- Flags that are truth values in the other order are the same truth values here.
        split
        next a b ha hb =>
          exact absurd ⟨a, b, (hoptional a).mpr ha, (hparameter b).mpr hb⟩ hflags
        next => exact .ok .none

end Nodes

/-! ## Entities, modules and projects -/

/-- An entity and the same entity in another order: its local fields are the same one by one, and
the parameters that it binds are the same in any order. -/
structure Entity.Reordered (e f : Entity) : Prop where
  kind : e.kind = f.kind
  isAbstract : e.isAbstract = f.isAbstract
  parent : Option.Rel (fun p q ↦ p.same q = true) e.parent f.parent
  response : Option.Rel (fun p q ↦ p.same q = true) e.response f.response
  path : e.path.same f.path = true
  method : e.method = f.method
  fields : List.Forall₂ (Entrywise fun a b ↦ a.same b = true) e.fields f.fields
  bindings : Table.Reordered (fun a b ↦ a.same b = true) e.bindings f.bindings
  remarks : e.remarks.same f.remarks = true

/-- A module and the same module in another order. -/
structure Module.Reordered (r : α → β → Prop) (m : Module α) (n : Module β) : Prop where
  entities : Table.Reordered r m.entities n.entities
  enumerations : Table.Reordered (fun a b ↦ a.same b = true) m.enumerations n.enumerations

/-- A project and the same project in another order. -/
def Project.Reordered (r : α → β → Prop) (p : Project α) (q : Project β) : Prop :=
  Table.Reordered (Module.Reordered r) p.modules q.modules

section Projects

variable {role : Value.Role} {v w : Value}

theorem ofWire?_of_reordered (h : v.Reordered role w) :
    EntityKind.ofWire? v = EntityKind.ofWire? w := by
  cases h <;> rfl

theorem agree_loadMethod (h : v.Reordered role w) :
    Agree Eq (Entity.loadMethod v).answer (Entity.loadMethod w).answer := by
  have hwire : Method.ofWire? v = Method.ofWire? w := by cases h <;> rfl
  rw [Entity.loadMethod, Entity.loadMethod, h.isNull, hwire]
  refine .ite (fun _ ↦ .ok rfl) fun _ ↦ ?_
  cases Method.ofWire? w with
  | none => exact .ok rfl
  | some m => exact .ok rfl

/-- What stands under the names of an entity, in the parts of a document that an entity has. -/
theorem agree_entity (h : v.Reordered .anEntity w) (hv : v.isKeyed = true) :
    Agree (Option.Rel Entity.Reordered) (Entity.load v).answer (Entity.load w).answer := by
  have hflag (b : Bool) := (h.field hv "isAbstract").eq_iff_of_isLeaf (x := .bool b) rfl
  rw [Entity.load, Entity.load, h.missing hv, ofWire?_of_reordered (h.field hv "type")]
  refine .ite (fun _ ↦ .ok .none) fun _ ↦ ?_
  by_cases habstract : ∃ b, v.field "isAbstract" = .bool b
  · obtain ⟨b, hb⟩ := habstract
    rw [hb, (hflag b).mp hb]
    dsimp only
    cases EntityKind.ofWire? (w.field "type") with
    | none => exact .ok .none
    | some kind =>
      dsimp only
      rw [Query.answer_bind, Query.answer_bind]
      refine (agree_loadMethod (h.field hv "method")).bind fun found _ hfound ↦ ?_
      cases hfound
      cases found with
      | none => exact .ok .none
      | some method =>
        dsimp only
        rw [Query.answer_bind, Query.answer_bind]
        -- Of the two tables of an entity only the local fields keep their order.
        refine (agree_loadChildren_inOrder (h.field hv "fieldsLocal") (Value.isKeyed_field hv _)
          fun _ _ _ ↦ agree_field).bind fun fields fields' hfields ↦ ?_
        rw [Query.answer_bind, Query.answer_bind]
        refine (agree_loadChildren (h.field hv "genericMap") (Value.isKeyed_field hv _)
          fun _ _ _ ↦ agree_field).bind fun bindings bindings' hbindings ↦ ?_
        rw [Query.answer_bind, Query.answer_bind]
        refine (agree_remarks h hv).bind fun r r' hremarks ↦ .ok (.some ?_)
        exact
          { kind := rfl
            isAbstract := rfl
            parent := rel_elementPath (h.field hv "parent") (Value.isKeyed_field hv _)
            response := rel_elementPath (h.field hv "response") (Value.isKeyed_field hv _)
            path := (h.field hv "path").same (Value.isKeyed_field hv _)
            method := rfl
            fields := hfields
            bindings := hbindings
            remarks := hremarks }
  · split
    next b hb => exact absurd ⟨b, hb⟩ habstract
    next =>
      split
      next b hb => exact absurd ⟨b, (hflag b).mpr hb⟩ habstract
      next => exact .ok .none

theorem agree_module (h : v.Reordered .aModule w) (hv : v.isKeyed = true) :
    Agree (Option.Rel (Module.Reordered Entity.Reordered)) (Module.load v).answer
      (Module.load w).answer := by
  have henums := h.field hv "enums"
  rw [Module.load, Module.load, h.missing hv]
  refine .ite (fun _ ↦ .ok .none) fun _ ↦ ?_
  rw [Query.answer_bind, Query.answer_bind]
  refine (agree_loadChildren (h.field hv "entities") (Value.isKeyed_field hv _)
    fun _ _ _ ↦ agree_entity).bind fun entities entities' hentities ↦ ?_
  rw [henums.isNull]
  refine .ite (fun _ ↦ .ok (.some ⟨hentities, .nil⟩)) fun _ ↦ ?_
  rw [Query.answer_bind, Query.answer_bind]
  refine (agree_loadChildren henums (Value.isKeyed_field hv _)
    fun _ _ _ ↦ agree_enumeration).bind fun enumerations enumerations' henumerations ↦ ?_
  exact .ok (.some ⟨hentities, henumerations⟩)

/-- The project of a document is the project of the document in any other order, in another
order. -/
theorem agree_project (h : v.Reordered .project w) (hv : v.isKeyed = true) :
    Agree (Option.Rel (Project.Reordered Entity.Reordered)) (Project.load v).answer
      (Project.load w).answer := by
  rw [Project.load, Project.load, h.missing hv]
  refine .ite (fun _ ↦ .ok .none) fun _ ↦ ?_
  rw [Query.answer_bind, Query.answer_bind]
  exact (agree_loadChildren (h.field hv "modules") (Value.isKeyed_field hv _)
    fun _ _ _ ↦ agree_module).bind fun _ _ hmodules ↦ .ok (.some hmodules)

end Projects

end EntityGraph
