import EntityGraph.Proofs.Table

/-!
# Documents in another order

The same document with the entries of its mappings in another order. The fields that an entity
declares come in an order that has a meaning, so the mapping that holds them is left as it is; every
other mapping may be permuted, wherever it stands, also inside a value that the library only carries
along. Which mapping that is depends on the keys that lead to it, and `Role` keeps track of them.

A document whose keys are texts that differ reads in any of its orders alike: what stands under a
key in one stands there in the other, itself reordered, and the two are the same value as members of
a container.
-/

namespace EntityGraph.Value

/-! ## Conditions on all values -/

mutual

/-- Whether the keys of all mappings in a value are texts that differ, and all sets in it hold what
can be a key. -/
def isKeyed : Value → Bool
  | .seq items => areKeyed items
  | .pair a b => isKeyed a && isKeyed b
  | .map entries => entriesKeyed entries
  | .set items => items.all isKey
  | _ => true
termination_by structural v => v

/-- The same for each of some values. -/
def areKeyed : List Value → Bool
  | [] => true
  | v :: rest => isKeyed v && areKeyed rest
termination_by structural vs => vs

/-- The same for the entries of a mapping. -/
def entriesKeyed : List (Value × Value) → Bool
  | [] => true
  | (key, v) :: rest =>
    key.isText && !(rest.any fun e ↦ key.same e.1) && isKeyed v && entriesKeyed rest
termination_by structural entries => entries

end

theorem areKeyed_iff {items : List Value} :
    areKeyed items = true ↔ ∀ v ∈ items, v.isKeyed = true := by
  induction items with
  | nil => simp [areKeyed]
  | cons v items ih => rw [areKeyed, Bool.and_eq_true, ih, List.forall_mem_cons]

/-- Under keys that are texts and differ there is one value each. -/
theorem entriesKeyed_iff {entries : List (Value × Value)} :
    entriesKeyed entries = true ↔
      Table.HasTextNames entries ∧ ∀ e ∈ entries, e.2.isKeyed = true := by
  induction entries with
  | nil => exact ⟨fun _ ↦ ⟨.nil, fun _ he ↦ absurd he List.not_mem_nil⟩, fun _ ↦ rfl⟩
  | cons e entries ih =>
    obtain ⟨key, v⟩ := e
    rw [entriesKeyed, Bool.and_eq_true, Bool.and_eq_true, Bool.and_eq_true, ih,
      List.forall_mem_cons, Table.hasTextNames_cons, Bool.not_eq_true', List.any_eq_false]
    -- Of texts, being the same as a key is being the key.
    constructor
    · rintro ⟨⟨⟨hkey, hnew⟩, hv⟩, hnames, hrest⟩
      refine ⟨⟨hkey, fun hmem ↦ ?_, hnames⟩, hv, hrest⟩
      obtain ⟨e, he, rfl⟩ := List.mem_map.mp hmem
      exact hnew e he (same_self (isKey_of_isText hkey))
    · rintro ⟨⟨hkey, hnew, hnames⟩, hv, hrest⟩
      refine ⟨⟨⟨hkey, fun e he hsame ↦ ?_⟩, hv⟩, hnames, hrest⟩
      rw [same_iff_of_isText (hnames.isText_of_mem he)] at hsame
      exact hnew (hsame ▸ Table.mem_names_of_mem he)

theorem isKeyed_field {v : Value} (h : v.isKeyed = true) (key : Text) :
    (v.field key).isKeyed = true := by
  refine field_of_forall (p := fun w ↦ w.isKeyed = true) rfl ?_ key
  rintro entries rfl e he
  exact (entriesKeyed_iff.mp h).2 e he

/-- Looking up a text among entries is looking it up in a table. -/
theorem lookup_eq_find? (key : Text) (entries : List (Value × Value)) :
    lookup key entries = Table.find? entries (.str key) := by
  induction entries with
  | nil => rfl
  | cons e entries ih =>
    obtain ⟨k, v⟩ := e
    rw [Table.find?_cons]
    cases k with
    | str s =>
      rw [lookup]
      by_cases hs : s = key
      · rw [if_pos hs, hs, if_pos (same_self rfl)]
      · have hother : ¬ (Value.str key).same (.str s) = true := by
          rw [same_iff_of_isText rfl]
          rintro ⟨⟩
          exact hs rfl
        rw [if_neg hs, if_neg hother]
        exact ih
    | _ => exact ih

/-! ## Reordering -/

/-- The part that a value has in the document of a project, told from the keys that lead to it. -/
inductive Role where
  | project | modules | aModule | entities | anEntity | fields | other
  deriving DecidableEq

/-- The part of the value under a key. -/
def Role.under (role : Role) (key : Value) : Role :=
  match role, key with
  | .project, .str t => if t = "modules" then .modules else .other
  | .modules, _ => .aModule
  | .aModule, .str t => if t = "entities" then .entities else .other
  | .entities, _ => .anEntity
  | .anEntity, .str t => if t = "fieldsLocal" then .fields else .other
  | _, _ => .other

/-- Whether a value is neither a sequence nor a mapping nor an entry of an ordered mapping. -/
def isLeaf : Value → Bool
  | .seq _ | .pair _ _ | .map _ => false
  | _ => true

mutual

/-- The same value with the entries of mappings in another order, but for the local fields of
entities. -/
inductive Reordered : Role → Value → Value → Prop where
  | leaf {role : Role} {v : Value} : v.isLeaf = true → Reordered role v v
  | seq {role : Role} {items items' : List Value} :
    ReorderedItems items items' → Reordered role (.seq items) (.seq items')
  | pair {role : Role} {a b a' b' : Value} :
    Reordered .other a a' → Reordered .other b b' → Reordered role (.pair a b) (.pair a' b')
  | map {role : Role} {entries between entries' : List (Value × Value)} :
    ReorderedEntries role entries between → between.Perm entries' →
      (role = .fields → between = entries') → Reordered role (.map entries) (.map entries')

/-- Items stay in their order. -/
inductive ReorderedItems : List Value → List Value → Prop where
  | nil : ReorderedItems [] []
  | cons {v v' : Value} {rest rest' : List Value} :
    Reordered .other v v' → ReorderedItems rest rest' → ReorderedItems (v :: rest) (v' :: rest')

/-- The same keys in the same order, and under each the same value reordered. -/
inductive ReorderedEntries : Role → List (Value × Value) → List (Value × Value) → Prop where
  | nil {role : Role} : ReorderedEntries role [] []
  | cons {role : Role} {key v v' : Value} {rest rest' : List (Value × Value)} :
    Reordered (role.under key) v v' → ReorderedEntries role rest rest' →
      ReorderedEntries role ((key, v) :: rest) ((key, v') :: rest')

end

mutual

/-- A document is in its own order. -/
theorem Reordered.refl (role : Role) : ∀ v : Value, Reordered role v v
  | .seq items => .seq (ReorderedItems.refl items)
  | .pair a b => .pair (Reordered.refl .other a) (Reordered.refl .other b)
  | .map entries => .map (ReorderedEntries.refl role entries) (.refl entries) fun _ ↦ rfl
  | .null | .bool _ | .int _ | .float _ | .str _ | .bytes _ | .date _ | .moment _ | .set _ =>
    .leaf rfl

theorem ReorderedItems.refl : ∀ items : List Value, ReorderedItems items items
  | [] => .nil
  | v :: rest => .cons (Reordered.refl .other v) (ReorderedItems.refl rest)

theorem ReorderedEntries.refl (role : Role) :
    ∀ entries : List (Value × Value), ReorderedEntries role entries entries
  | [] => .nil
  | (key, v) :: rest =>
    .cons (Reordered.refl (role.under key) v) (ReorderedEntries.refl role rest)

end

/-! ## What stands under a key -/

/-- Two entries of the same key, the value of one being that of the other reordered. -/
def ReorderedEntry (role : Role) (e f : Value × Value) : Prop :=
  e.1 = f.1 ∧ Reordered (role.under e.1) e.2 f.2

theorem ReorderedEntries.forall₂ {role : Role} {entries entries' : List (Value × Value)}
    (h : ReorderedEntries role entries entries') :
    List.Forall₂ (ReorderedEntry role) entries entries' := by
  induction entries generalizing entries' with
  | nil =>
    cases h
    exact .nil
  | cons e rest ih =>
    cases h with
    | cons hvalue hrest => exact .cons ⟨rfl, hvalue⟩ (ih hrest)

/-- The entries of a mapping, in the other order. -/
theorem Reordered.entries {role : Role} {entries : List (Value × Value)} {w : Value}
    (h : Reordered role (.map entries) w) :
    ∃ entries', w = .map entries' ∧ Rearranged (ReorderedEntry role) entries entries' ∧
      (role = .fields → List.Forall₂ (ReorderedEntry role) entries entries') := by
  cases h with
  | leaf hleaf => cases hleaf
  | @map _ _ between entries' hentries hperm hfields =>
    refine ⟨entries', rfl, ⟨between, hentries.forall₂, hperm⟩, ?_⟩
    intro hrole
    rw [← hfields hrole]
    exact hentries.forall₂

variable {role : Role} {v w : Value}

theorem Reordered.isMap (h : Reordered role v w) : w.isMap = v.isMap := by
  cases h <;> rfl

theorem Reordered.isNull (h : Reordered role v w) : w.isNull = v.isNull := by
  cases h <;> rfl

/-- A value that holds no other values is in one order what it is in the other. -/
theorem Reordered.eq_iff_of_isLeaf (h : Reordered role v w) {x : Value} (hx : x.isLeaf = true) :
    v = x ↔ w = x := by
  cases h with
  | leaf => exact Iff.rfl
  | _ =>
    constructor
    · rintro rfl
      cases hx
    · rintro rfl
      cases hx

/-- What stands under a key in a document stands there in every order of it. -/
theorem Reordered.field (h : Reordered role v w) (hv : v.isKeyed = true) (key : Text) :
    Reordered (role.under (.str key)) (v.field key) (w.field key) := by
  cases h with
  | @map _ entries between entries' hentries hperm _ =>
    have hrearranged : Rearranged (ReorderedEntry role) entries entries' :=
      ⟨between, hentries.forall₂, hperm⟩
    have hfind := hrearranged.find? (fun _ _ hentry ↦ hentry.1) (entriesKeyed_iff.mp hv).1
      (.str key)
    rw [Value.field, Value.field, lookup_eq_find?, lookup_eq_find?]
    generalize Table.find? entries (.str key) = found at hfind ⊢
    generalize Table.find? entries' (.str key) = found' at hfind ⊢
    cases hfind with
    | none => exact .leaf rfl
    | some hentry => exact hentry.2
  | leaf hleaf =>
    have hnull : v.field key = .null := by
      cases v with
      | map entries => cases hleaf
      | _ => rfl
    rw [hnull]
    exact .leaf rfl
  | seq _ => exact .leaf rfl
  | pair _ _ => exact .leaf rfl

theorem Reordered.missing (h : Reordered role v w) (hv : v.isKeyed = true) (keys : List Text) :
    w.missing keys = v.missing keys := by
  rw [Value.missing, Value.missing]
  exact List.filter_congr fun key _ ↦ (h.field hv key).isNull

/-! ## Equality in any order -/

theorem entriesIn_iff {xs ys : List (Value × Value)} :
    entriesIn xs ys = true ↔ ∀ e ∈ xs, ∃ w, Table.find? ys e.1 = some w ∧ e.2.same w = true := by
  induction xs with
  | nil => simp [entriesIn]
  | cons e xs ih =>
    obtain ⟨k, v⟩ := e
    rw [entriesIn, Bool.and_eq_true, ih, List.forall_mem_cons, Table.find?]
    cases List.find? (fun e ↦ k.same e.1) ys with
    | none => simp
    | some f => simp

theorem itemsIn_self {items others : List Value} (h : items.all isKey = true)
    (hsub : ∀ v ∈ items, v ∈ others) : itemsIn items others = true := by
  induction items with
  | nil => rfl
  | cons v items ih =>
    rw [List.all_cons, Bool.and_eq_true] at h
    obtain ⟨hv, hrest⟩ := List.forall_mem_cons.mp hsub
    rw [itemsIn, ih h.2 hrest, Bool.and_true, List.any_eq_true]
    exact ⟨v, hv, same_self h.1⟩

/-- A value that holds no other values is the same as itself. -/
theorem same_self_of_isLeaf (hleaf : v.isLeaf = true) (hv : v.isKeyed = true) :
    v.same v = true := by
  cases v with
  | set items =>
    rw [isKeyed] at hv
    rw [same, beq_self_eq_true, Bool.true_and]
    exact itemsIn_self hv fun _ hmem ↦ hmem
  | seq items => cases hleaf
  | pair a b => cases hleaf
  | map entries => cases hleaf
  | _ => exact same_self rfl

mutual

/-- A reordered value is the same value as a member of a container. -/
theorem Reordered.same {role : Role} {v w : Value} :
    Reordered role v w → v.isKeyed = true → v.same w = true
  | .leaf hleaf, hv => same_self_of_isLeaf hleaf hv
  | .seq hitems, hv => hitems.same (areKeyed_iff.mp hv)
  | .pair ha hb, hv => by
    rw [isKeyed, Bool.and_eq_true] at hv
    rw [Value.same, ha.same hv.1, hb.same hv.2]
    rfl
  | .map hentries hperm _, hv => by
    obtain ⟨hnames, hvalues⟩ := entriesKeyed_iff.mp hv
    have hsame := (Rearranged.of_forall₂ (hentries.same hvalues)).perm_right hperm
    rw [Value.same, Bool.and_eq_true, beq_iff_eq, entriesIn_iff]
    exact ⟨hsame.length_eq, fun e he ↦ hsame.exists_find? hnames he⟩

theorem ReorderedItems.same {items items' : List Value} :
    ReorderedItems items items' → (∀ v ∈ items, v.isKeyed = true) →
      sameItems items items' = true
  | .nil, _ => rfl
  | .cons hv hrest, h => by
    obtain ⟨hkeyed, hothers⟩ := List.forall_mem_cons.mp h
    rw [sameItems, hv.same hkeyed, hrest.same hothers]
    rfl

theorem ReorderedEntries.same {role : Role} {entries entries' : List (Value × Value)} :
    ReorderedEntries role entries entries' → (∀ e ∈ entries, e.2.isKeyed = true) →
      List.Forall₂ (Entrywise fun v w ↦ v.same w = true) entries entries'
  | .nil, _ => .nil
  | .cons hv hrest, h => by
    obtain ⟨hkeyed, hothers⟩ := List.forall_mem_cons.mp h
    exact .cons ⟨rfl, hv.same hkeyed⟩ (hrest.same hothers)

end

end EntityGraph.Value
