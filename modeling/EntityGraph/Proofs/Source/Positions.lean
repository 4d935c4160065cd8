import EntityGraph.Proofs.Source.Walk
import EntityGraph.Proofs.Yaml.PlainNodes
import EntityGraph.Source.Location

/-!
# Positions of nodes

The source map of a node tree knows every node that tokens lead to, under the pointer of the tokens.
The map is filled in the order in which the nodes stand, and the last position under a pointer
counts. So the nodes below a repeated key leave positions behind, but those of the last entry
replace them wherever it has a node itself.
-/

namespace EntityGraph

/-! ## Looking up in source maps -/

namespace Source.Map

theorem lookup_insert (m : Map) (pointer key : Text) (position : Position) :
    (m.insert pointer position).lookup key =
      if key = pointer then some (some position) else m.lookup key := by
  induction m with
  | nil =>
    rw [insert, List.lookup_cons]
    by_cases hkey : key = pointer
    · rw [if_pos hkey, hkey, beq_self_eq_true]
    · rw [if_neg hkey, beq_false_of_ne hkey]
  | cons e m ih =>
    obtain ⟨p, q⟩ := e
    rw [insert]
    by_cases hp : p = pointer
    · rw [if_pos hp, List.lookup_cons, List.lookup_cons, hp]
      by_cases hkey : key = pointer
      · rw [if_pos hkey, hkey, beq_self_eq_true]
      · rw [if_neg hkey, beq_false_of_ne hkey]
    · rw [if_neg hp, List.lookup_cons, List.lookup_cons, ih]
      by_cases hkey : key = p
      · have hne : key ≠ pointer := hkey ▸ hp
        rw [if_neg hne, if_neg hne, hkey, beq_self_eq_true]
      · rw [beq_false_of_ne hkey]

/-- Of several positions that were seen under a pointer the last one counts. -/
theorem lookup_ofList (seen : List (Text × Position)) (pointer : Text) :
    (ofList seen).lookup pointer = (seen.reverse.lookup pointer).map some := by
  have hfold (m : Map) : (seen.foldl (fun m e ↦ m.insert e.1 e.2) m).lookup pointer =
      ((seen.reverse.lookup pointer).map some).or (m.lookup pointer) := by
    induction seen generalizing m with
    | nil => rfl
    | cons e seen ih =>
      rw [List.foldl_cons, ih, List.reverse_cons, List.lookup_append, lookup_insert,
        List.lookup_cons, Option.map_or, Option.or_assoc]
      by_cases he : pointer = e.1
      · rw [if_pos he, he, beq_self_eq_true]
        rfl
      · rw [if_neg he, beq_false_of_ne he]
        rfl
  rw [ofList, hfold]
  exact Option.or_none

theorem eq_or_mem_of_mem_insert {m : Map} {pointer : Text} {position : Position}
    {e : Text × Option Position} (he : e ∈ m.insert pointer position) :
    e = (pointer, some position) ∨ e ∈ m := by
  induction m with
  | nil => exact Or.inl (List.mem_singleton.mp he)
  | cons f m ih =>
    rw [insert] at he
    split at he
    next hsame =>
      rcases List.mem_cons.mp he with rfl | he
      · exact Or.inl (by rw [hsame])
      · exact Or.inr (List.mem_cons_of_mem _ he)
    next =>
      rcases List.mem_cons.mp he with rfl | he
      · exact Or.inr List.mem_cons_self
      · exact (ih he).imp_right (List.mem_cons_of_mem _)

/-- A source map has no positions but those that were seen. -/
theorem exists_seen_of_mem_ofList {seen : List (Text × Position)} {e : Text × Option Position}
    (he : e ∈ ofList seen) : ∃ position, e.2 = some position ∧ (e.1, position) ∈ seen := by
  have hfold (m : Map) : ∀ e ∈ seen.foldl (fun m e ↦ m.insert e.1 e.2) m,
      (∃ position, e.2 = some position ∧ (e.1, position) ∈ seen) ∨ e ∈ m := by
    clear he
    induction seen generalizing m with
    | nil => exact fun e he ↦ Or.inr he
    | cons f seen ih =>
      intro e he
      rcases ih _ e he with ⟨position, hposition, hseen⟩ | hm
      · exact Or.inl ⟨position, hposition, List.mem_cons_of_mem _ hseen⟩
      · rcases eq_or_mem_of_mem_insert hm with rfl | hm
        · exact Or.inl ⟨f.2, rfl, List.mem_cons_self⟩
        · exact Or.inr hm
  exact (hfold [] e he).resolve_right List.not_mem_nil

theorem position?_eq_some_iff {m : Map} {pointer : Text} {position : Position} :
    m.position? pointer = some position ↔ m.lookup pointer = some (some position) :=
  Option.join_eq_some_iff

theorem mem_of_position? {m : Map} {pointer : Text} {position : Position}
    (h : m.position? pointer = some position) : (pointer, some position) ∈ m := by
  obtain ⟨before, after, rfl, -⟩ := List.lookup_eq_some_iff.mp (position?_eq_some_iff.mp h)
  exact List.mem_append_right _ List.mem_cons_self

/-- A pointer that the map has a position for needs no other one around it. -/
theorem nearest?_of_position? {m : Map} {pointer : Text} {position : Position}
    (h : m.position? pointer = some position) : m.nearest? pointer = some position := by
  rw [nearest?, Pointer.withEnclosing, List.findSome?_cons, h]

end Source.Map

namespace Yaml.Node

theorem exists_tokens_of_mem_positions (n : Node) (base : Text) :
    ∀ e ∈ n.positions base, ∃ tokens, e.1 = base ++ Pointer.ofTokens tokens := by
  intro e he
  obtain ⟨tokens, target, -, rfl⟩ := mem_positions_iff.mp he
  exact ⟨tokens, rfl⟩

/-! ## The position of a node -/

theorem lookup_reverse_eq_none {seen : List (Text × Source.Position)} {pointer : Text}
    (h : ∀ e ∈ seen, pointer ≠ e.1) : seen.reverse.lookup pointer = none := by
  rw [List.lookup_eq_none_iff]
  intro e he
  rw [bne_iff_ne]
  exact h e (List.mem_reverse.mp he)

theorem keyText_ne_of_lastUnder? {token : Text} {entries : List (Node × Node)}
    (h : lastUnder? token entries = none) : ∀ e ∈ entries, e.1.keyText ≠ token := by
  induction entries with
  | nil => exact fun e he ↦ absurd he List.not_mem_nil
  | cons e entries ih =>
    obtain ⟨k, v⟩ := e
    rw [lastUnder?, Option.or_eq_none_iff] at h
    rw [List.forall_mem_cons]
    refine ⟨fun hk ↦ ?_, ih h.1⟩
    have hif := h.2
    rw [if_pos hk] at hif
    cases hif

section

variable {tokens : List Text} {m : Node} {target : Source.Position}
  (hm : ∀ base, (m.positions base).reverse.lookup (base ++ Pointer.ofTokens tokens) = some target)

include hm

/-- What is known below the pointer of a node is known below the pointer of the mapping whose last
entry under a key it is. -/
theorem lookup_entryPositions {token : Text} {entries : List (Node × Node)}
    (h : lastUnder? token entries = some m) (base : Text) :
    (entryPositions base entries).reverse.lookup (base ++ Pointer.ofTokens (token :: tokens)) =
      some target := by
  induction entries with
  | nil => cases h
  | cons e entries ih =>
    obtain ⟨k, v⟩ := e
    rw [entryPositions, List.reverse_append, List.lookup_append, Option.or_eq_some_iff]
    rw [lastUnder?, Option.or_eq_some_iff] at h
    rcases h with h | ⟨hnone, h⟩
    · exact Or.inl (ih h)
    · split at h
      next hk =>
        cases h
        refine Or.inr ⟨lookup_reverse_eq_none fun e he heq ↦ ?_, ?_⟩
        · obtain ⟨f, hf, others, _, -, rfl⟩ := exists_leads_of_mem_entryPositions entries base e he
          have htokens := Pointer.ofTokens_inj.mp (List.append_cancel_left heq)
          exact keyText_ne_of_lastUnder? hnone f hf (List.cons.inj htokens).1.symm
        · rw [hk, ← Pointer.join_append_ofTokens]
          exact hm _
      next => cases h

/-- The same for an item of a sequence. -/
theorem lookup_itemPositions {token : Text} {index : Nat} {items : List Node}
    (h : itemAt? token index items = some m) (base : Text) :
    (itemPositions base index items).reverse.lookup
      (base ++ Pointer.ofTokens (token :: tokens)) = some target := by
  induction items generalizing index with
  | nil => cases h
  | cons n items ih =>
    rw [itemPositions, List.reverse_append, List.lookup_append, Option.or_eq_some_iff]
    rw [itemAt?] at h
    split at h
    next hindex =>
      cases h
      refine Or.inr ⟨lookup_reverse_eq_none fun e he heq ↦ ?_, ?_⟩
      · obtain ⟨i, _, others, _, -, -, rfl⟩ := exists_leads_of_mem_itemPositions items base _ e he
        have htokens := Pointer.ofTokens_inj.mp (List.append_cancel_left heq)
        have hsame := toString_index_inj.mp (hindex.trans (List.cons.inj htokens).1)
        omega
      · rw [hindex, ← Pointer.join_append_ofTokens]
        exact hm _
    next => exact Or.inl (ih h)

end

/-- Under the pointer of tokens the last position is that of the node they lead to. -/
theorem lookup_positions {tokens : List Text} {n target : Node} (h : n.at? tokens = some target)
    (base : Text) : (n.positions base).reverse.lookup (base ++ Pointer.ofTokens tokens) =
      some target.place.position := by
  induction tokens generalizing n base with
  | nil =>
    rw [← Option.some.inj h]
    rw [Pointer.ofTokens_nil, List.append_nil]
    -- Everything inside the node is below at least one token more.
    have hinner {inner : List (Text × Source.Position)}
        (h : ∀ e ∈ inner, ∃ token others, e.1 = base ++ Pointer.ofTokens (token :: others)) :
        inner.reverse.lookup base = none := by
      refine lookup_reverse_eq_none fun e he heq ↦ ?_
      obtain ⟨token, others, hothers⟩ := h e he
      rw [← heq, Pointer.ofTokens_cons] at hothers
      exact List.cons_ne_nil _ _ (List.self_eq_append_right.mp hothers)
    have hself (p : Source.Position) : [(base, p)].lookup base = some p := by
      rw [List.lookup_cons, beq_self_eq_true]
    cases n with
    | scalar tag text place => exact hself _
    | seq tag items place =>
      rw [positions, List.reverse_cons, List.lookup_append, hinner, Option.none_or]
      · exact hself _
      · intro e he
        obtain ⟨_, _, others, _, -, -, rfl⟩ := exists_leads_of_mem_itemPositions items base 0 e he
        exact ⟨_, others, rfl⟩
    | map tag entries place =>
      rw [positions, List.reverse_cons, List.lookup_append, hinner, Option.none_or]
      · exact hself _
      · intro e he
        obtain ⟨_, -, others, _, -, rfl⟩ := exists_leads_of_mem_entryPositions entries base e he
        exact ⟨_, others, rfl⟩
  | cons token tokens ih =>
    rw [at?, Option.bind_eq_some_iff] at h
    obtain ⟨m, hm, h⟩ := h
    have hbelow := fun base ↦ ih h base
    cases n with
    | scalar tag text place => cases hm
    | seq tag items place =>
      rw [positions, List.reverse_cons, List.lookup_append, lookup_itemPositions hbelow hm]
      rfl
    | map tag entries place =>
      rw [positions, List.reverse_cons, List.lookup_append, lookup_entryPositions hbelow hm]
      rfl

/-- The source map of a tree has the position of every node that tokens lead to. -/
theorem lookup_sourceMap {tokens : List Text} {n target : Node}
    (h : n.at? tokens = some target) :
    n.sourceMap.lookup (Pointer.ofTokens tokens) = some (some target.place.position) := by
  rw [sourceMap, Source.Map.lookup_ofList, Option.map_eq_some_iff]
  exact ⟨_, lookup_positions h [], rfl⟩

theorem position?_sourceMap {tokens : List Text} {n target : Node}
    (h : n.at? tokens = some target) :
    n.sourceMap.position? (Pointer.ofTokens tokens) = some target.place.position :=
  Source.Map.position?_eq_some_iff.mpr (lookup_sourceMap h)

end Yaml.Node

end EntityGraph
