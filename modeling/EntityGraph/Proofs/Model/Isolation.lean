import EntityGraph.Proofs.Check.DropRecords
import EntityGraph.Proofs.Model.Completion
import EntityGraph.Proofs.Value.Replacement

/-!
# What a malformed node costs

A node under a name is loaded by itself: whatever stands in its place, the entries around it load as
they did, and the nodes around it keep everything else they have. So loading a document and loading
it again with another value at one entry give projects that agree but for that entry, where each has
what it loads, if it loads anything.

There is one way out of this. A setting whose name has no text is a fault and not a malformed node,
and a fault ends the loading of the whole document. So everywhere below, a second computation
follows a first one: it answers with something related, or meets this fault because the new value
brings it in.
-/

namespace EntityGraph

variable {α β γ δ ν : Type}

/-! ## Computations that follow others -/

/-- Whether a computation, where another one answers, answers with something related, or fails for
want of a text because something is broken. -/
def Follows (broken : Prop) (r : α → β → Prop) (x : Except Fault α) (y : Except Fault β) : Prop :=
  ∀ a, x = .ok a → (∃ b, y = .ok b ∧ r a b) ∨ broken ∧ y = .error .numberTooLong

namespace Follows

variable {broken : Prop} {r : α → β → Prop} {q : γ → δ → Prop} {x : Except Fault α}
  {y : Except Fault β}

theorem ok {a : α} {b : β} (h : r a b) : Follows broken r (.ok a) (.ok b) := by
  intro a' ha'
  cases ha'
  exact Or.inl ⟨b, rfl, h⟩

/-- Computations that may have no result follow each other so as their results do. -/
theorem imp_some {r' : α → β → Prop} {x : Except Fault (Option α)} {y : Except Fault (Option β)}
    (h : Follows broken (Option.Rel r) x y) (hr : ∀ a b, r a b → r' a b) :
    Follows broken (Option.Rel r') x y := by
  intro a ha
  refine (h a ha).imp_left fun ⟨b, hb, hab⟩ ↦ ⟨b, hb, ?_⟩
  cases hab with
  | some hab => exact .some (hr _ _ hab)
  | none => exact .none

theorem bind {f : α → Except Fault γ} {g : β → Except Fault δ} (h : Follows broken r x y)
    (hfg : ∀ a b, r a b → Follows broken q (f a) (g b)) :
    Follows broken q (x >>= f) (y >>= g) := by
  intro c hc
  obtain ⟨a, ha, hc⟩ := bind_eq_ok_iff.mp hc
  rcases h a ha with ⟨b, rfl, hab⟩ | ⟨hbroken, rfl⟩
  · exact hfg a b hab c hc
  · exact Or.inr ⟨hbroken, rfl⟩

theorem of_eq {x' : Except Fault α} (h : x = x') : Follows broken Eq x x' :=
  fun a ha ↦ Or.inl ⟨a, h ▸ ha, rfl⟩

/-- A step that both take answers the same. -/
theorem bind_right {f : α → Except Fault γ} {g : α → Except Fault δ}
    (hfg : ∀ a, x = .ok a → Follows broken q (f a) (g a)) :
    Follows broken q (x >>= f) (x >>= g) := by
  have hx : Follows broken (fun a b ↦ x = .ok a ∧ a = b) x x :=
    fun a ha ↦ Or.inl ⟨a, ha, ha, rfl⟩
  exact hx.bind fun a b hab ↦ hab.2 ▸ hfg a hab.1

end Follows

/-! ## Tables -/

/-- The table of at most one item. -/
def holding (name : Value) (item : Option α) : Table α :=
  (item.map fun a ↦ (name, a)).toList

/-- One more entry, whatever it loads as, keeps the names of a table among those of the entries. -/
theorem names_holding_append_sublist {t : Table α} {entries : List (Value × Value)}
    (h : t.names.Sublist (Table.names entries)) (key v : Value) (item : Option α) :
    (holding key item ++ t).names.Sublist (Table.names ((key, v) :: entries)) := by
  cases item with
  | none => exact h.cons key
  | some a => exact h.cons_cons key

/-- Whether two tables agree but for one name: what is in them was found at an entry of that name,
and is related, and everything else is in both of them, before or after as its entries are. -/
inductive Table.AgreeBut (name : Value) (r : Value → Option α → Option α → Prop) :
    List (Value × Value) → Table α → Table α → Prop where
  | intro {earlier later : List (Value × Value)} {key v : Value} {before after : Table α}
      {x y : Option α} (hname : name.same key = true)
      (hbefore : before.names.Sublist (Table.names earlier))
      (hafter : after.names.Sublist (Table.names later)) (hrel : r v x y) :
    AgreeBut name r (earlier ++ (key, v) :: later) (before ++ holding key x ++ after)
      (before ++ holding key y ++ after)

/-- An entry before the others, with what it loads as, is one that the tables agree on. -/
theorem Table.AgreeBut.cons {name : Value} {r : Value → Option α → Option α → Prop}
    {entries : List (Value × Value)} {s t : Table α} (h : AgreeBut name r entries s t)
    (key v : Value) (item : Option α) :
    AgreeBut name r ((key, v) :: entries) (holding key item ++ s) (holding key item ++ t) := by
  obtain @⟨earlier, later, k, w, before, after, x, y, hname, hbefore, hafter, hrel⟩ := h
  have hfirst := names_holding_append_sublist hbefore key v item
  simpa only [List.cons_append, List.append_assoc] using
    AgreeBut.intro (v := w) hname hfirst hafter hrel

section Entries

variable {kind : NodeKind} {load : Value → Query (Option α)}

theorem answer_loadEntries_cons (key v : Value) (rest : List (Value × Value)) :
    (loadEntries kind load ((key, v) :: rest)).answer =
      (load v).answer >>= fun x ↦ (loadEntries kind load rest).answer >>= fun t ↦
        .ok (holding key x ++ t) := by
  rw [loadEntries, Query.answer_bind]
  refine congrArg _ (funext fun x ↦ ?_)
  cases x with
  | none =>
    change (loadEntries kind load rest).answer = _
    cases (loadEntries kind load rest).answer with
    | error fault => rfl
    | ok t => rfl
  | some a =>
    rw [Query.answer_bind]
    rfl

/-- The names in a table are those of some of the entries, in their order. -/
theorem names_sublist_of_loadEntries {entries : List (Value × Value)} {t : Table α}
    (h : (loadEntries kind load entries).answer = .ok t) :
    t.names.Sublist (Table.names entries) := by
  induction entries generalizing t with
  | nil =>
    cases h
    exact List.Sublist.slnil
  | cons e entries ih =>
    obtain ⟨key, v⟩ := e
    rw [answer_loadEntries_cons] at h
    obtain ⟨x, -, h⟩ := bind_eq_ok_iff.mp h
    obtain ⟨rest, hrest, h⟩ := bind_eq_ok_iff.mp h
    cases h
    exact names_holding_append_sublist (ih hrest) key v x

/-- With another value at one entry, the table agrees with what it was but for that entry. -/
theorem follows_loadEntries {broken : Prop} {r : Value → Option α → Option α → Prop}
    {entries : List (Value × Value)} {name old new : Value}
    (hfound : Table.find? entries name = some old)
    (hitem : Follows broken (r old) (load old).answer (load new).answer) :
    Follows broken (Table.AgreeBut name r entries) (loadEntries kind load entries).answer
      (loadEntries kind load (Table.insert entries name new)).answer := by
  induction entries with
  | nil => cases hfound
  | cons e entries ih =>
    obtain ⟨key, v⟩ := e
    rw [Table.find?_cons] at hfound
    rw [Table.insert]
    by_cases hsame : name.same key = true
    · rw [if_pos hsame] at hfound
      cases hfound
      rw [if_pos hsame, answer_loadEntries_cons, answer_loadEntries_cons]
      refine hitem.bind fun x y hxy ↦ .bind_right fun t ht ↦ .ok ?_
      have hagree : Table.AgreeBut name r ([] ++ (key, old) :: entries) ([] ++ holding key x ++ t)
          ([] ++ holding key y ++ t) :=
        .intro hsame List.Sublist.slnil (names_sublist_of_loadEntries ht) hxy
      exact hagree
    · rw [if_neg hsame] at hfound
      rw [if_neg hsame, answer_loadEntries_cons, answer_loadEntries_cons]
      exact .bind_right fun x _ ↦ (ih hfound).bind fun s t hst ↦ .ok (hst.cons key v x)

end Entries

/-! ## Nodes

Two values are alike at the keys that a node is loaded by, apart from the tables. -/

/-- Whether nothing but what is under some keys differs in two values, and is not null there in one
of them only. -/
structure Value.AlikeBut (keys : List Text) (v w : Value) : Prop where
  others : ∀ key, key ∉ keys → w.field key = v.field key
  isNull : ∀ key, (w.field key).isNull = (v.field key).isNull

namespace Value.AlikeBut

variable {keys : List Text} {v w : Value}

theorem missing_eq (h : AlikeBut keys v w) (required : List Text) :
    w.missing required = v.missing required :=
  List.filter_congr fun key _ ↦ h.isNull key

theorem mono {keys' : List Text} (h : AlikeBut keys v w) (hkeys : ∀ key ∈ keys, key ∈ keys') :
    AlikeBut keys' v w where
  others := fun key hkey ↦ h.others key fun hmem ↦ hkey (hkeys key hmem)
  isNull := h.isNull

theorem remarks_eq (h : AlikeBut keys v w)
    (hkeys : ∀ key ∈ (["comment", "config"] : List Text), key ∉ keys) :
    Remarks.load w = Remarks.load v := by
  have hcomment := h.others "comment" (hkeys _ (by simp))
  have hconfig := h.others "config" (hkeys _ (by simp))
  rw [Remarks.load, Remarks.load, Remarks.commentOf, Remarks.commentOf, Remarks.settingsOf,
    Remarks.settingsOf, hcomment, hconfig]

end Value.AlikeBut

section Nodes

variable {broken : Prop} {v w : Value}

theorem Enumeration.follows_load {r : Table EnumItem → Table EnumItem → Prop}
    (h : Value.AlikeBut ["enumMap"] v w)
    (hitems : Follows broken r (loadChildren .enumItem EnumItem.load (v.field "enumMap")).answer
      (loadChildren .enumItem EnumItem.load (w.field "enumMap")).answer) :
    Follows broken (Option.Rel fun e e' ↦ e' = { e with items := e'.items } ∧ r e.items e'.items)
      (load v).answer (load w).answer := by
  rw [load, load, h.missing_eq, h.remarks_eq (by decide)]
  by_cases hmissing : v.missing requiredKeys ≠ []
  · rw [if_pos hmissing, if_pos hmissing]
    exact .ok .none
  · rw [if_neg hmissing, if_neg hmissing, Query.answer_bind, Query.answer_bind]
    refine hitems.bind fun s t hst ↦ ?_
    rw [Query.answer_bind, Query.answer_bind]
    exact .bind_right fun remarks _ ↦ .ok (.some ⟨rfl, hst⟩)

theorem Entity.follows_load {r q : Table Field → Table Field → Prop}
    (h : Value.AlikeBut ["fieldsLocal", "genericMap"] v w)
    (hfields : Follows broken r (loadChildren .field Field.load (v.field "fieldsLocal")).answer
      (loadChildren .field Field.load (w.field "fieldsLocal")).answer)
    (hbindings : Follows broken q
      (loadChildren .genericBinding Field.load (v.field "genericMap")).answer
      (loadChildren .genericBinding Field.load (w.field "genericMap")).answer) :
    Follows broken
      (Option.Rel fun e e' ↦ e' = { e with fields := e'.fields, bindings := e'.bindings } ∧
        r e.fields e'.fields ∧ q e.bindings e'.bindings)
      (load v).answer (load w).answer := by
  rw [load, load, h.missing_eq, h.remarks_eq (by decide), h.others "isAbstract" (by decide),
    h.others "type" (by decide), h.others "method" (by decide), h.others "parent" (by decide),
    h.others "response" (by decide), h.others "path" (by decide)]
  by_cases hmissing : v.missing requiredKeys ≠ []
  · rw [if_pos hmissing, if_pos hmissing]
    exact .ok .none
  · rw [if_neg hmissing, if_neg hmissing]
    cases hflag : v.field "isAbstract" with
    | bool isAbstract =>
      cases hkind : EntityKind.ofWire? (v.field "type") with
      | none => exact .ok .none
      | some kind =>
        simp only [Query.answer_bind]
        refine .bind_right fun found _ ↦ ?_
        cases found with
        | none => exact .ok .none
        | some method =>
          simp only [Query.answer_bind]
          refine hfields.bind fun s t hst ↦ hbindings.bind fun s' t' hst' ↦ ?_
          exact .bind_right fun remarks _ ↦ .ok (.some ⟨rfl, hst, hst'⟩)
    | _ => exact .ok .none

theorem Module.follows_load {r : Table Entity → Table Entity → Prop}
    {q : Table Enumeration → Table Enumeration → Prop}
    (h : Value.AlikeBut ["entities", "enums"] v w)
    (hempty : (v.field "enums").isNull = true → q [] [])
    (hentities : Follows broken r (loadChildren .entity Entity.load (v.field "entities")).answer
      (loadChildren .entity Entity.load (w.field "entities")).answer)
    (henums : Follows broken q
      (loadChildren .enumeration Enumeration.load (v.field "enums")).answer
      (loadChildren .enumeration Enumeration.load (w.field "enums")).answer) :
    Follows broken
      (Option.Rel fun m m' ↦ r m.entities m'.entities ∧ q m.enumerations m'.enumerations)
      (load v).answer (load w).answer := by
  rw [load, load, h.missing_eq, h.isNull]
  by_cases hmissing : v.missing requiredKeys ≠ []
  · rw [if_pos hmissing, if_pos hmissing]
    exact .ok .none
  · rw [if_neg hmissing, if_neg hmissing, Query.answer_bind, Query.answer_bind]
    refine hentities.bind fun s t hst ↦ ?_
    by_cases hnull : (v.field "enums").isNull = true
    · rw [if_pos hnull, if_pos hnull]
      exact .ok (.some ⟨hst, hempty hnull⟩)
    · rw [if_neg hnull, if_neg hnull, Query.answer_bind, Query.answer_bind]
      exact henums.bind fun s' t' hst' ↦ .ok (.some ⟨hst, hst'⟩)

theorem Project.follows_load {r : Table (Module Entity) → Table (Module Entity) → Prop}
    (h : Value.AlikeBut ["modules"] v w)
    (hmodules : Follows broken r
      (loadChildren .moduleNode Module.load (v.field "modules")).answer
      (loadChildren .moduleNode Module.load (w.field "modules")).answer) :
    Follows broken
      (Option.Rel fun p p' ↦ p' = { p with modules := p'.modules } ∧ r p.modules p'.modules)
      (load v).answer (load w).answer := by
  rw [load, load, h.missing_eq, h.others "name" (by decide), h.others "version" (by decide),
    h.others "targetPackage" (by decide)]
  by_cases hmissing : v.missing requiredKeys ≠ []
  · rw [if_pos hmissing, if_pos hmissing]
    exact .ok .none
  · rw [if_neg hmissing, if_neg hmissing, Query.answer_bind, Query.answer_bind]
    refine hmodules.bind fun s t hst ↦ ?_
    exact .ok (.some ⟨rfl, hst⟩)

end Nodes

/-- Putting another value at one entry of a table changes nothing beside the table. -/
theorem Value.exists_entries_of_reach? {key : Text} {v name old : Value}
    (h : v.reach? [.str key, name] = some old) (new : Value) :
    ∃ entries, v.field key = .map entries ∧ Table.find? entries name = some old ∧
      (v.replaceAt [.str key, name] new).field key = .map (Table.insert entries name new) ∧
      AlikeBut [key] v (v.replaceAt [.str key, name] new) := by
  obtain ⟨outer, part, rfl, hpart, hrest⟩ := reach?_cons_eq_some_iff.mp h
  obtain ⟨entries, found, rfl, hfound, hold⟩ := reach?_cons_eq_some_iff.mp hrest
  cases hold
  rw [replaceAt_cons hpart, replaceAt_cons hfound, replaceAt_nil]
  have htable : (Value.map outer).field key = .map entries := by
    rw [field, lookup_eq_find?, hpart, Option.getD_some]
  have hreplaced (t : Value) : (Value.map (Table.insert outer (.str key) t)).field key = t := by
    rw [field, lookup_insert_self, Option.getD_some]
  have hothers (t : Value) (k : Text) (hk : k ≠ key) :
      (Value.map (Table.insert outer (.str key) t)).field k = (Value.map outer).field k := by
    rw [field, lookup_insert_of_ne hk, field]
  refine ⟨entries, htable, hfound, hreplaced _, fun k hk ↦ hothers _ k ?_, fun k ↦ ?_⟩
  · exact fun heq ↦ hk (List.mem_singleton.mpr heq)
  · by_cases hk : k = key
    · rw [hk, hreplaced, htable]
      rfl
    · rw [hothers _ k hk]

/-! ## Containers -/

/-- One of the tables that a node holds others in: the role that they have there, and how the node
holds them. -/
structure Container (ν α : Type) where
  kind : NodeKind
  items : ν → Table α
  /-- The node with another table. -/
  put : ν → Table α → ν

namespace Container

def modules : Container (Project Entity) (Module Entity) where
  kind := .moduleNode
  items := Project.modules
  put := fun p t ↦ { p with modules := t }

def entities : Container (Module Entity) Entity where
  kind := .entity
  items := Module.entities
  put := fun m t ↦ { m with entities := t }

def enumerations : Container (Module Entity) Enumeration where
  kind := .enumeration
  items := Module.enumerations
  put := fun m t ↦ { m with enumerations := t }

def fields : Container Entity Field where
  kind := .field
  items := Entity.fields
  put := fun e t ↦ { e with fields := t }

def bindings : Container Entity Field where
  kind := .genericBinding
  items := Entity.bindings
  put := fun e t ↦ { e with bindings := t }

def enumItems : Container Enumeration EnumItem where
  kind := .enumItem
  items := Enumeration.items
  put := fun e t ↦ { e with items := t }

/-- The key that the table stands under in the value of the node. -/
def key (c : Container ν α) : Text := c.kind.container

/-- Whether two nodes agree but for one name in a container: everything outside the container is the
same, and the tables in it agree but for the name. -/
def AgreeBut (c : Container ν α) (name : Value) (r : Value → Option α → Option α → Prop) (v : Value)
    (n n' : ν) : Prop :=
  n' = c.put n (c.items n') ∧
    Table.AgreeBut name r (Dropped.entriesOf (v.field c.key)) (c.items n) (c.items n')

/-- Whether it is all the same to a loader, apart from the table that it puts there, what is in a
container. -/
def Isolates (c : Container ν α) (load : Value → Query (Option ν))
    (loadItem : Value → Query (Option α)) : Prop :=
  ∀ {broken : Prop} {r : Table α → Table α → Prop} {v w : Value},
    Value.AlikeBut [c.key] v w → (v.field c.key).isMap = true →
    Follows broken r (loadChildren c.kind loadItem (v.field c.key)).answer
      (loadChildren c.kind loadItem (w.field c.key)).answer →
    Follows broken (Option.Rel fun n n' ↦ n' = c.put n (c.items n') ∧ r (c.items n) (c.items n'))
      (load v).answer (load w).answer

theorem isolates_modules : modules.Isolates Project.load Module.load :=
  fun h _ hitems ↦ Project.follows_load h hitems

theorem isolates_enumItems : enumItems.Isolates Enumeration.load EnumItem.load :=
  fun h _ hitems ↦ Enumeration.follows_load h hitems

theorem isolates_entities : entities.Isolates Module.load Entity.load := by
  intro broken r v w h _ hitems
  have hboth : Value.AlikeBut ["entities", "enums"] v w := h.mono (by decide)
  have henums : w.field "enums" = v.field "enums" := h.others _ (by decide)
  refine (Module.follows_load (q := Eq) hboth (fun _ ↦ rfl) hitems
    (.of_eq (by rw [henums]))).imp_some fun m m' hmm' ↦ ⟨?_, hmm'.1⟩
  cases m'
  cases hmm'.2
  rfl

theorem isolates_enumerations : enumerations.Isolates Module.load Enumeration.load := by
  intro broken r v w h hmap hitems
  have hboth : Value.AlikeBut ["entities", "enums"] v w := h.mono (by decide)
  have hentities : w.field "entities" = v.field "entities" := h.others _ (by decide)
  have hnull : ¬ (v.field "enums").isNull = true :=
    Bool.eq_false_iff.mp (Value.isNull_eq_false_of_isMap hmap)
  refine (Module.follows_load (r := Eq) hboth (fun h ↦ absurd h hnull)
    (.of_eq (by rw [hentities])) hitems).imp_some fun m m' hmm' ↦ ⟨?_, hmm'.2⟩
  cases m'
  cases hmm'.1
  rfl

theorem isolates_fields : fields.Isolates Entity.load Field.load := by
  intro broken r v w h _ hitems
  have hboth : Value.AlikeBut ["fieldsLocal", "genericMap"] v w := h.mono (by decide)
  have hbindings : w.field "genericMap" = v.field "genericMap" := h.others _ (by decide)
  refine (Entity.follows_load (q := Eq) hboth hitems (.of_eq (by rw [hbindings]))).imp_some
    fun e e' hee' ↦ ⟨?_, hee'.2.1⟩
  obtain ⟨heq, -, hsame⟩ := hee'
  rw [heq, ← hsame]
  rfl

theorem isolates_bindings : bindings.Isolates Entity.load Field.load := by
  intro broken r v w h _ hitems
  have hboth : Value.AlikeBut ["fieldsLocal", "genericMap"] v w := h.mono (by decide)
  have hfields : w.field "fieldsLocal" = v.field "fieldsLocal" := h.others _ (by decide)
  refine (Entity.follows_load (r := Eq) hboth (.of_eq (by rw [hfields])) hitems).imp_some
    fun e e' hee' ↦ ⟨?_, hee'.2.2⟩
  obtain ⟨heq, hsame, -⟩ := hee'
  rw [heq, ← hsame]
  rfl

/-- With another value at a path that goes through a container, the node agrees with what it was but
for the entry where the path leaves the container. -/
theorem Isolates.follows {broken : Prop} {c : Container ν α} {load : Value → Query (Option ν)}
    {loadItem : Value → Query (Option α)} (hc : c.Isolates load loadItem)
    {r : Value → Option α → Option α → Prop} {v name old new : Value} {path : List Value}
    (hreach : v.reach? (.str c.key :: name :: path) = some old)
    (hitem : ∀ w, w.reach? path = some old →
      Follows broken (r w) (loadItem w).answer (loadItem (w.replaceAt path new)).answer) :
    Follows broken (Option.Rel (c.AgreeBut name r v)) (load v).answer
      (load (v.replaceAt (.str c.key :: name :: path) new)).answer := by
  have hsplit : Value.str c.key :: name :: path = [.str c.key, name] ++ path := rfl
  rw [hsplit, Value.reach?_append] at hreach
  obtain ⟨w, hw, hpath⟩ := Option.bind_eq_some_iff.mp hreach
  obtain ⟨entries, hentries, hfound, hreplaced, halike⟩ :=
    Value.exists_entries_of_reach? hw (w.replaceAt path new)
  rw [hsplit, Value.replaceAt_append hw]
  refine hc halike (by rw [hentries]; rfl) ?_ |>.imp_some fun n n' h ↦ h
  rw [hentries, hreplaced]
  exact follows_loadEntries hfound (hitem w hpath)

end Container

/-! ## Places -/

/-- A place where a document has a node under a name, by the names on the way. -/
inductive NodePlace where
  | moduleNode (m : Value)
  | entity (m e : Value)
  | enumeration (m e : Value)
  | field (m e f : Value)
  | genericBinding (m e f : Value)
  | enumItem (m e i : Value)

namespace NodePlace

/-- The keys on the way from the document to a place. -/
def path : NodePlace → List Value
  | .moduleNode m => [.str "modules", m]
  | .entity m e => [.str "modules", m, .str "entities", e]
  | .enumeration m e => [.str "modules", m, .str "enums", e]
  | .field m e f => [.str "modules", m, .str "entities", e, .str "fieldsLocal", f]
  | .genericBinding m e f => [.str "modules", m, .str "entities", e, .str "genericMap", f]
  | .enumItem m e i => [.str "modules", m, .str "enums", e, .str "enumMap", i]

/-- Whether a value, in a place, is one that loading fails on. -/
def FailsOn (v : Value) : NodePlace → Prop
  | .moduleNode _ => (Module.load v).answer = .error .numberTooLong
  | .entity _ _ => (Entity.load v).answer = .error .numberTooLong
  | .enumeration _ _ => (Enumeration.load v).answer = .error .numberTooLong
  | .field _ _ _ | .genericBinding _ _ _ => (Field.load v).answer = .error .numberTooLong
  | .enumItem _ _ _ => (EnumItem.load v).answer = .error .numberTooLong

end NodePlace

/-- What an entry has in the two projects: what its value was loaded as, and what the new value is
loaded as. -/
def Reloads (load : Value → Query (Option α)) (new v : Value) (x y : Option α) : Prop :=
  (load v).answer = .ok x ∧ (load new).answer = .ok y

/-- What an entry has in the two projects where the place is within its value: nothing in both, or
two nodes that are related. -/
def Within (r : Value → α → α → Prop) (v : Value) : Option α → Option α → Prop := Option.Rel (r v)

open Container in
/-- Whether two projects agree but for one place, where the first has what is loaded from a document
and the second what a new value is loaded as. -/
def NodePlace.AgreeBut (new : Value) : NodePlace → Value → Project Entity → Project Entity → Prop
  | .moduleNode m => modules.AgreeBut m (Reloads Module.load new)
  | .entity m e => modules.AgreeBut m (Within (entities.AgreeBut e (Reloads Entity.load new)))
  | .enumeration m e =>
    modules.AgreeBut m (Within (enumerations.AgreeBut e (Reloads Enumeration.load new)))
  | .field m e f => modules.AgreeBut m (Within (entities.AgreeBut e
      (Within (fields.AgreeBut f (Reloads Field.load new)))))
  | .genericBinding m e f => modules.AgreeBut m (Within (entities.AgreeBut e
      (Within (bindings.AgreeBut f (Reloads Field.load new)))))
  | .enumItem m e i => modules.AgreeBut m (Within (enumerations.AgreeBut e
      (Within (enumItems.AgreeBut i (Reloads EnumItem.load new)))))

/-- A new value is loaded, or loading fails on it. -/
theorem follows_reloads {load : Value → Query (Option α)} {p : Option α → Prop} {new : Value}
    (h : Settles (new.keysWritable = true) p (load new).answer) (w : Value) :
    Follows ((load new).answer = .error .numberTooLong) (Reloads load new w) (load w).answer
      (load (w.replaceAt [] new)).answer := by
  intro x hx
  rw [Value.replaceAt_nil]
  cases hy : (load new).answer with
  | ok y => exact Or.inl ⟨y, rfl, hx, hy⟩
  | error fault =>
    rw [hy] at h
    obtain ⟨rfl, -⟩ := h
    exact Or.inr ⟨rfl, rfl⟩

open Container in
/-- Loading with another value at a place follows loading without it. -/
theorem NodePlace.follows_load {d old new : Value} (place : NodePlace)
    (hreach : d.reach? place.path = some old) :
    Follows (place.FailsOn new) (Option.Rel (place.AgreeBut new d)) (Project.load d).answer
      (Project.load (d.replaceAt place.path new)).answer := by
  cases place with
  | moduleNode m =>
    exact isolates_modules.follows hreach fun w _ ↦ follows_reloads (settles_load_module id) w
  | entity m e =>
    refine isolates_modules.follows hreach fun w hw ↦ ?_
    exact isolates_entities.follows hw fun w _ ↦ follows_reloads (settles_load_entity id) w
  | enumeration m e =>
    refine isolates_modules.follows hreach fun w hw ↦ ?_
    exact isolates_enumerations.follows hw fun w _ ↦ follows_reloads (settles_load_enumeration id) w
  | field m e f =>
    refine isolates_modules.follows hreach fun w hw ↦ ?_
    refine isolates_entities.follows hw fun w hw ↦ ?_
    exact isolates_fields.follows hw fun w _ ↦ follows_reloads (settles_load_field id) w
  | genericBinding m e f =>
    refine isolates_modules.follows hreach fun w hw ↦ ?_
    refine isolates_entities.follows hw fun w hw ↦ ?_
    exact isolates_bindings.follows hw fun w _ ↦ follows_reloads (settles_load_field id) w
  | enumItem m e i =>
    refine isolates_modules.follows hreach fun w hw ↦ ?_
    refine isolates_enumerations.follows hw fun w hw ↦ ?_
    exact isolates_enumItems.follows hw fun w _ ↦ follows_reloads (settles_load_enumItem id) w

/-- Loading fails on a value only if it has a key without a text. -/
theorem NodePlace.keysWritable_of_failsOn {new : Value} {place : NodePlace}
    (h : place.FailsOn new) :
    new.keysWritable = false := by
  have hbroken {β : Type} {p : Option β → Prop} {load : Value → Query (Option β)}
      (hsettles : Settles (new.keysWritable = true) p (load new).answer)
      (hfault : (load new).answer = .error .numberTooLong) : new.keysWritable = false := by
    rw [hfault] at hsettles
    exact Bool.eq_false_iff.mpr hsettles.2
  cases place with
  | moduleNode m => exact hbroken (settles_load_module id) h
  | entity m e => exact hbroken (settles_load_entity id) h
  | enumeration m e => exact hbroken (settles_load_enumeration id) h
  | field m e f => exact hbroken (settles_load_field id) h
  | genericBinding m e f => exact hbroken (settles_load_field id) h
  | enumItem m e i => exact hbroken (settles_load_enumItem id) h

/-- With another value at an entry, a document is loaded as a project that agrees with what it was
loaded as everywhere but at that entry, where there is what the value is loaded as, if anything. The
one exception is a value with a setting that has no name: loading fails on it, and then on the
document. -/
theorem Project.load_replaceAt {d old new : Value} {place : NodePlace} {p : Project Entity}
    (hload : (load d).answer = .ok (some p)) (hreach : d.reach? place.path = some old) :
    (∃ p', (load (d.replaceAt place.path new)).answer = .ok (some p') ∧
        place.AgreeBut new d p p') ∨
      place.FailsOn new ∧ new.keysWritable = false ∧
        (load (d.replaceAt place.path new)).answer = .error .numberTooLong := by
  rcases place.follows_load hreach _ hload with ⟨_, hanswer, hagree⟩ | ⟨hfails, hanswer⟩
  · cases hagree with
    | some hagree => exact Or.inl ⟨_, hanswer, hagree⟩
  · exact Or.inr ⟨hfails, NodePlace.keysWritable_of_failsOn hfails, hanswer⟩

/-- Of two fields, one is replaced by nothing: the other one is still there. -/
theorem Project.load_replaceAt_field_null :
    let field : Value := .map [(.str "type", .map [(.str "type", .str "TString")]),
      (.str "isOptional", .bool false), (.str "isPathParameter", .bool false)]
    let entity : Value := .map [(.str "type", .int 0), (.str "isAbstract", .bool false),
      (.str "fieldsLocal", .map [(.str "f", field), (.str "g", field)]),
      (.str "genericMap", .map [])]
    let d : Value := .map [(.str "modules",
      .map [(.str "m", .map [(.str "entities", .map [(.str "A", entity)])])])]
    let place : NodePlace := .field (.str "m") (.str "A") (.str "f")
    let names (p : Project Entity) : List (List Value) :=
      p.flatEntities.map fun e ↦ e.2.fields.names
    d.reach? place.path = some field ∧
    ∃ p p', (load d).answer = .ok (some p) ∧ names p = [[.str "f", .str "g"]] ∧
      (load (d.replaceAt place.path .null)).answer = .ok (some p') ∧ names p' = [[.str "g"]] ∧
      place.AgreeBut .null d p p' := by
  intro field entity d place names
  have hreach : d.reach? place.path = some field := rfl
  obtain ⟨p, hload, hnames⟩ :
      ∃ p, (load d).answer = .ok (some p) ∧ names p = [[.str "f", .str "g"]] := ⟨_, rfl, rfl⟩
  obtain ⟨p', hload', hnames'⟩ : ∃ p', (load (d.replaceAt place.path .null)).answer =
      .ok (some p') ∧ names p' = [[.str "g"]] := ⟨_, rfl, rfl⟩
  refine ⟨hreach, p, p', hload, hnames, hload', hnames', ?_⟩
  rcases load_replaceAt hload hreach with ⟨q, hq, hagree⟩ | ⟨-, hkeys, -⟩
  · cases hload'.symm.trans hq
    exact hagree
  · cases hkeys

end EntityGraph
