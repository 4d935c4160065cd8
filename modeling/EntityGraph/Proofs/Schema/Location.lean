import EntityGraph.Check.Structure
import EntityGraph.Proofs.Schema.ProjectDocuments

/-!
# Where violations are

A violation below a key is a violation of the mapping, with the key before the way to it. So the
violations of a node are found among those of the document, each at the way to the node followed by
its own way. `Covers` says this of a node; it goes down from the document to the modules, and from
each node to the entries of its tables.
-/

namespace EntityGraph

/-! ## Pointers -/

namespace Pointer

/-- Whether a pointer is another one, or goes on after it with a slash. -/
def IsWithin (outer inner : Text) : Prop := inner = outer ∨ outer ++ [.char '/'] <+: inner

theorem prefix_foldl_join (tokens : List Text) (p : Text) : p <+: tokens.foldl join p := by
  induction tokens generalizing p with
  | nil => exact List.prefix_refl p
  | cons token tokens ih => exact (List.prefix_append _ _).trans (ih (join p token))

theorem isWithin_foldl_join (p : Text) (tokens : List Text) :
    IsWithin p (tokens.foldl join p) := by
  cases tokens with
  | nil => exact Or.inl rfl
  | cons token tokens =>
    right
    have hjoin : p ++ [.char '/'] <+: join p token := ⟨escape token, List.append_assoc _ _ _⟩
    exact hjoin.trans (prefix_foldl_join tokens (join p token))

/-- The pointer of a node that keys lead to. -/
def ofKeys (keys : List Value) : Text := ofTokens (keys.map Value.plain)

theorem ofKeys_append (keys others : List Value) :
    ofKeys (keys ++ others) = (others.map Value.plain).foldl join (ofKeys keys) := by
  rw [ofKeys, List.map_append, ofTokens, List.foldl_append]
  rfl

theorem isWithin_ofKeys_append (keys others : List Value) :
    IsWithin (ofKeys keys) (ofKeys (keys ++ others)) := by
  rw [ofKeys_append]
  exact isWithin_foldl_join _ _

end Pointer

namespace Schema

/-! ## Violations below keys -/

/-- A violation of a part, seen from where the part is reached by keys. -/
def Violation.below (keys : List Value) (x : Violation) : Violation :=
  { x with path := keys ++ x.path }

theorem Violation.below_append (keys others : List Value) (x : Violation) :
    x.below (keys ++ others) = (x.below others).below keys := by
  rw [below, List.append_assoc]
  rfl

variable {defs : Definitions} {bound : Nat} {v : Value} {x : Violation}

theorem mem_check_all {ks : List Keyword} {source : Value} {k : Keyword} (hk : k ∈ ks)
    (hx : x ∈ checkKeyword defs bound k v) : x ∈ check defs bound (.all ks source) v := by
  rw [check]
  induction ks with
  | nil => cases hk
  | cons k' ks ih =>
    rw [checkAll, List.mem_append]
    rcases List.mem_cons.mp hk with rfl | hk
    · exact Or.inl hx
    · exact Or.inr (ih hk)

theorem mem_underKey {key : Value} {s : Schema} {vs : List Violation}
    (hs : ∀ accepts, s ≠ .always accepts) (hkey : key.isNull = false) (hx : x ∈ vs) :
    x.below [key] ∈ underKey key s vs := by
  have hunder : x.below [key] ∈ under key vs := by
    rw [under, hkey, if_neg Bool.false_ne_true]
    exact List.mem_map.mpr ⟨x, hx, rfl⟩
  cases s with
  | always accepts => exact absurd rfl (hs accepts)
  | reference target source => exact hunder
  | all ks source => exact hunder

theorem mem_checkMembers {members : List (Text × Schema)} {entries : List (Value × Value)}
    {m : Text × Schema} {w : Value} (hm : m ∈ members) (hs : ∀ accepts, m.2 ≠ .always accepts)
    (hw : Value.lookup m.1 entries = some w) (hx : x ∈ check defs defs.length m.2 w) :
    x.below [.str m.1] ∈ checkMembers defs members entries := by
  induction members with
  | nil => cases hm
  | cons m' members ih =>
    obtain ⟨key, s⟩ := m'
    rw [checkMembers, List.mem_append]
    rcases List.mem_cons.mp hm with rfl | hm
    · left
      split
      next w' hw' =>
        cases hw.symm.trans hw'
        exact mem_underKey hs rfl hx
      next hnone =>
        rw [hw] at hnone
        cases hnone
    · exact Or.inr (ih hm)

theorem mem_checkOthers {s : Schema} {entries : List (Value × Value)} {e : Value × Value}
    (he : e ∈ entries) (hs : ∀ accepts, s ≠ .always accepts) (hkey : e.1.isNull = false)
    (hx : x ∈ check defs defs.length s e.2) :
    x.below [e.1] ∈ checkOthers defs [] s entries := by
  induction entries with
  | nil => cases he
  | cons e' entries ih =>
    obtain ⟨key, w⟩ := e'
    rw [checkOthers, List.mem_append]
    rcases List.mem_cons.mp he with rfl | he
    · left
      rw [List.any_nil, if_neg Bool.false_ne_true]
      exact mem_underKey hs hkey hx
    · exact Or.inr (ih he)

theorem mem_check_tableOf {name : String} {entries : List (Value × Value)} {e : Value × Value}
    (he : e ∈ entries) (hkey : e.1.isNull = false)
    (hx : x ∈ check defs defs.length (ofValue (definition name)) e.2) :
    x.below [e.1] ∈ check defs bound (ofValue (tableOf name)) (.map entries) := by
  rw [ofValue_definition] at hx
  rw [ofValue_tableOf, ofValue_definition]
  refine mem_check_all (List.mem_cons_of_mem _ List.mem_cons_self) ?_
  rw [checkKeyword]
  · exact mem_checkOthers he (fun accepts h ↦ by cases h) hkey hx
  all_goals simp

/-- A violation of an entry in a table is a violation of the mapping that has the table as one of
its properties. -/
theorem mem_check_properties {ks : List Keyword} {source : Value} {ps : List (String × Value)}
    {key name : String} {entries : List (Value × Value)} {e : Value × Value}
    (hk : .properties (ps.map fun p ↦ ((p.1 : Text), ofValue p.2)) ∈ ks)
    (hp : (key, tableOf name) ∈ ps) (hentries : v.field key = .map entries) (he : e ∈ entries)
    (hkey : e.1.isNull = false)
    (hx : x ∈ check defs defs.length (ofValue (definition name)) e.2) :
    x.below [.str key, e.1] ∈ check defs bound (.all ks source) v := by
  refine mem_check_all hk ?_
  cases v with
  | map members =>
    have hlookup : Value.lookup key members = some (.map entries) := by
      rw [Value.field] at hentries
      cases hfound : Value.lookup key members with
      | none => rw [hfound] at hentries; cases hentries
      | some w => rw [hfound] at hentries; rw [← hentries]; rfl
    rw [checkKeyword]
    have htable : x.below [e.1] ∈
        check defs defs.length (ofValue (tableOf name)) (.map entries) :=
      mem_check_tableOf he hkey hx
    refine mem_checkMembers (m := ((key : Text), ofValue (tableOf name))) ?_ ?_ hlookup htable
    · exact List.mem_map_of_mem hp
    · intro accepts h
      rw [ofValue_tableOf] at h
      cases h
  | _ => cases hentries

/-! ## Nodes of project documents -/

/-- Whether the violations of a node under a definition are violations of the document, at the keys
that lead to the node. -/
def Covers (document : Value) (name : String) (keys : List Value) (v : Value) : Prop :=
  ∀ x ∈ check projectReferences projectReferences.length (ofValue (definition name)) v,
    x.below keys ∈ violations projectSchema document

variable {document : Value} {entries : List (Value × Value)} {e : Value × Value}

theorem covers_module (hentries : document.field "modules" = .map entries) (he : e ∈ entries)
    (hkey : e.1.isNull = false) : Covers document "module" [.str "modules", e.1] e.2 := by
  intro x hx
  have htable : ("modules", tableOf "module") ∈ documentProperties := by simp [documentProperties]
  rw [violations, ofValue_projectSchema]
  exact mem_check_properties (by simp) htable hentries he hkey hx

theorem Covers.entry {d : NodeDefinition} {keys : List Value} {key name : String}
    (h : Covers document d.name keys v) (hd : d ∈ nodeDefinitions)
    (hp : (key, tableOf name) ∈ d.properties) (hentries : v.field key = .map entries)
    (he : e ∈ entries) (hkey : e.1.isNull = false) :
    Covers document name (keys ++ [.str key, e.1]) e.2 := by
  intro x hx
  rw [Violation.below_append]
  refine h _ ?_
  rw [check_definition (node_mem_projectDefinitions d hd), ofValue_node]
  exact mem_check_properties (by simp) hp hentries he hkey hx

/-- A part that is not valid has a violation. -/
theorem Covers.exists_violation {name : String} {keys : List Value}
    (h : Covers document name keys v) (hv : ¬ IsValid name v) :
    ∃ x : Violation, x.below keys ∈ violations projectSchema document := by
  obtain ⟨x, hx⟩ := List.exists_mem_of_ne_nil _ hv
  exact ⟨x, h x hx⟩

end Schema

end EntityGraph
