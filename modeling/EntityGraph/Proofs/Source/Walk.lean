import EntityGraph.Proofs.Pointer
import EntityGraph.Yaml.Document

/-!
# The walk through a tree

The positions in a tree are taken down on a walk that comes to every node in it, outer ones first.
What it comes to is told by tokens: `Leads` says that they lead from a node to one in it, whatever
their pointer is. The walk takes down the nodes that tokens lead to and no others, each under the
pointer of its tokens. A node is taken down once for each way to it, and where a key is repeated,
several nodes are taken down under one pointer.
-/

namespace EntityGraph.Yaml.Node

/-- Tokens lead from a node to one in it: the index of an item to the item, and the text of a key to
the value under it. A repeated key leads to each of its values. -/
inductive Leads : Node → List Text → Node → Prop where
  | self (n : Node) : Leads n [] n
  | item {tag : Tag} {items : List Node} {place : Place} {i : Nat} {m target : Node}
    {tokens : List Text} : items[i]? = some m → Leads m tokens target →
    Leads (seq tag items place) (Text.ofString (toString i) :: tokens) target
  | value {tag : Tag} {entries : List (Node × Node)} {place : Place} {e : Node × Node}
    {target : Node} {tokens : List Text} : e ∈ entries → Leads e.2 tokens target →
    Leads (map tag entries place) (e.1.keyText :: tokens) target

/-! ## What is taken down -/

theorem exists_leads_self (n : Node) (base : Text) : ∃ tokens target, n.Leads tokens target ∧
    (base, n.place.position) = (base ++ Pointer.ofTokens tokens, target.place.position) :=
  ⟨[], n, .self n, by rw [Pointer.ofTokens_nil, List.append_nil]⟩

mutual

theorem exists_leads_of_mem_positions : ∀ (n : Node) (base : Text), ∀ e ∈ n.positions base,
    ∃ tokens target, n.Leads tokens target ∧
      e = (base ++ Pointer.ofTokens tokens, target.place.position)
  | .scalar _ _ _, base => List.forall_mem_singleton.mpr (exists_leads_self _ base)
  | .seq tag items place, base => by
    refine List.forall_mem_cons.mpr ⟨exists_leads_self _ base, fun e he ↦ ?_⟩
    obtain ⟨i, m, tokens, target, hm, hleads, rfl⟩ :=
      exists_leads_of_mem_itemPositions items base 0 e he
    rw [Nat.zero_add]
    exact ⟨_, target, .item hm hleads, rfl⟩
  | .map tag entries place, base => by
    refine List.forall_mem_cons.mpr ⟨exists_leads_self _ base, fun e he ↦ ?_⟩
    obtain ⟨f, hf, tokens, target, hleads, rfl⟩ :=
      exists_leads_of_mem_entryPositions entries base e he
    exact ⟨_, target, .value hf hleads, rfl⟩

theorem exists_leads_of_mem_itemPositions : ∀ (items : List Node) (base : Text) (index : Nat),
    ∀ e ∈ itemPositions base index items, ∃ (i : Nat) (m : Node) (tokens : List Text)
      (target : Node), items[i]? = some m ∧ m.Leads tokens target ∧
      e = (base ++ Pointer.ofTokens (Text.ofString (toString (index + i)) :: tokens),
        target.place.position)
  | [], _, _ => fun _ he ↦ absurd he List.not_mem_nil
  | n :: rest, base, index => by
    rw [itemPositions, List.forall_mem_append]
    refine ⟨fun e he ↦ ?_, fun e he ↦ ?_⟩
    · obtain ⟨tokens, target, hleads, rfl⟩ := exists_leads_of_mem_positions n _ e he
      rw [Pointer.join_append_ofTokens]
      exact ⟨0, n, tokens, target, rfl, hleads, rfl⟩
    · obtain ⟨i, m, tokens, target, hm, hleads, rfl⟩ :=
        exists_leads_of_mem_itemPositions rest base _ e he
      -- The item is one further on in all the items, and the indices go on at one more.
      rw [Nat.add_right_comm, Nat.add_assoc]
      exact ⟨i + 1, m, tokens, target, hm, hleads, rfl⟩

theorem exists_leads_of_mem_entryPositions : ∀ (entries : List (Node × Node)) (base : Text),
    ∀ e ∈ entryPositions base entries, ∃ f ∈ entries, ∃ (tokens : List Text) (target : Node),
      f.2.Leads tokens target ∧
      e = (base ++ Pointer.ofTokens (f.1.keyText :: tokens), target.place.position)
  | [], _ => fun _ he ↦ absurd he List.not_mem_nil
  | (k, v) :: rest, base => by
    rw [entryPositions, List.forall_mem_append]
    refine ⟨fun e he ↦ ?_, fun e he ↦ ?_⟩
    · obtain ⟨tokens, target, hleads, rfl⟩ := exists_leads_of_mem_positions v _ e he
      rw [Pointer.join_append_ofTokens]
      exact ⟨(k, v), List.mem_cons_self, tokens, target, hleads, rfl⟩
    · obtain ⟨f, hf, hleads⟩ := exists_leads_of_mem_entryPositions rest base e he
      exact ⟨f, List.mem_cons_of_mem _ hf, hleads⟩

end

/-! ## What is passed -/

theorem mem_itemPositions {items : List Node} {i : Nat} {m : Node} (hm : items[i]? = some m)
    {base : Text} {index : Nat} {e : Text × Source.Position}
    (he : e ∈ m.positions (Pointer.join base (toString (index + i)))) :
    e ∈ itemPositions base index items := by
  induction items generalizing i index with
  | nil => cases hm
  | cons n items ih =>
    rw [itemPositions, List.mem_append]
    cases i with
    | zero => exact Or.inl (Option.some.inj hm ▸ he)
    | succ i =>
      rw [← Nat.add_assoc, Nat.add_right_comm] at he
      exact Or.inr (ih hm he)

theorem mem_entryPositions {entries : List (Node × Node)} {f : Node × Node} (hf : f ∈ entries)
    {base : Text} {e : Text × Source.Position}
    (he : e ∈ f.2.positions (Pointer.join base f.1.keyText)) : e ∈ entryPositions base entries := by
  induction entries with
  | nil => exact absurd hf List.not_mem_nil
  | cons f' entries ih =>
    rw [entryPositions, List.mem_append]
    rcases List.mem_cons.mp hf with rfl | hf
    · exact Or.inl he
    · exact Or.inr (ih hf)

theorem Leads.mem_positions {n target : Node} {tokens : List Text} (h : n.Leads tokens target)
    (base : Text) :
    (base ++ Pointer.ofTokens tokens, target.place.position) ∈ n.positions base := by
  induction h generalizing base with
  | self n =>
    rw [Pointer.ofTokens_nil, List.append_nil]
    cases n <;> exact List.mem_cons_self
  | item hm _ ih =>
    rw [← Pointer.join_append_ofTokens]
    refine List.mem_cons_of_mem _ (mem_itemPositions hm ?_)
    rw [Nat.zero_add]
    exact ih _
  | value he _ ih =>
    rw [← Pointer.join_append_ofTokens]
    exact List.mem_cons_of_mem _ (mem_entryPositions he (ih _))

/-- The walk takes down the nodes that tokens lead to, each under the pointer of its tokens. -/
theorem mem_positions_iff {n : Node} {base : Text} {e : Text × Source.Position} :
    e ∈ n.positions base ↔ ∃ tokens target, n.Leads tokens target ∧
      e = (base ++ Pointer.ofTokens tokens, target.place.position) := by
  constructor
  · exact exists_leads_of_mem_positions n base e
  · rintro ⟨tokens, target, hleads, rfl⟩
    exact hleads.mem_positions base

end EntityGraph.Yaml.Node
