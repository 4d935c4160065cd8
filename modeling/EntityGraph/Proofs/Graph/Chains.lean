import EntityGraph.Graph.Inheritance
import EntityGraph.Proofs.Query
import Mathlib.Data.List.Nodup

/-!
# Chains of entities

The chain of an entity is the list of its ancestors, the eldest first and the entity itself last.
Here it is described without a walk: an entity that inherits from nothing is a chain by itself, and
an entity whose parent path leads to the end of a chain goes on with that chain.

Parent paths lead to one entity at most, so an entity has one chain at most. No entity occurs in a
chain twice, for it would otherwise have a shorter chain as well. So the walk, which breaks off at
an entity that it has seen before, never does so on a chain, and answers with it.
-/

namespace EntityGraph.Graph

/-- The chain of an entity: it ends with the entity, the parent path of each of its entities leads
to the one before, and the first has no parent path or one that leads nowhere. -/
inductive IsChain (g : Graph) (project : Option (Project EntityId)) :
    List EntityId → EntityId → Prop where
  | root {id : EntityId} :
    (∀ path, (g.entity id).parent = some path → follow project path = .ok none) →
      IsChain g project [id] id
  | child {chain : List EntityId} {parent id : EntityId} {path : ElementPath} :
    IsChain g project chain parent → (g.entity id).parent = some path →
      follow project path = .ok (some parent) → IsChain g project (chain ++ [id]) id

namespace IsChain

variable {g : Graph} {project : Option (Project EntityId)} {chain : List EntityId} {id : EntityId}

/-- A chain ends with the entity that it belongs to. -/
theorem exists_eq_append (h : g.IsChain project chain id) : ∃ above, chain = above ++ [id] := by
  cases h with
  | root _ => exact ⟨[], rfl⟩
  | @child above _ _ _ _ _ _ => exact ⟨above, rfl⟩

theorem self_mem (h : g.IsChain project chain id) : id ∈ chain := by
  obtain ⟨above, rfl⟩ := h.exists_eq_append
  exact List.mem_append_right _ (List.mem_singleton_self id)

/-- An entity has one chain at most. -/
theorem unique {other : List EntityId} (h : g.IsChain project chain id)
    (h' : g.IsChain project other id) : chain = other := by
  induction h generalizing other with
  | root hroot =>
    cases h' with
    | root _ => rfl
    | child _ hpath hfollow => cases (hroot _ hpath).symm.trans hfollow
  | child _ hpath hfollow ih =>
    cases h' with
    | root hroot => cases (hroot _ hpath).symm.trans hfollow
    | child hupper hpath' hfollow' =>
      cases hpath.symm.trans hpath'
      cases hfollow.symm.trans hfollow'
      rw [ih hupper]

/-- A chain up to one of its entities is the chain of that entity. -/
theorem exists_isChain_of_mem (h : g.IsChain project chain id) {e : EntityId} (he : e ∈ chain) :
    ∃ upper, upper <+: chain ∧ g.IsChain project upper e := by
  induction h with
  | root hroot =>
    rw [List.mem_singleton] at he
    rw [he]
    exact ⟨_, List.prefix_refl _, .root hroot⟩
  | child hupper hpath hfollow ih =>
    rcases List.mem_append.mp he with he | he
    · obtain ⟨upper, hprefix, hchain⟩ := ih he
      exact ⟨upper, hprefix.trans (List.prefix_append _ _), hchain⟩
    · rw [List.mem_singleton] at he
      rw [he]
      exact ⟨_, List.prefix_refl _, .child hupper hpath hfollow⟩

/-- No entity occurs in a chain twice. -/
theorem nodup (h : g.IsChain project chain id) : chain.Nodup := by
  induction h with
  | root _ => exact List.nodup_singleton _
  | @child chain parent id path hupper hpath hfollow ih =>
    -- The entity would end a part of the chain above it, and so have a second, shorter chain.
    have hnew : id ∉ chain := by
      intro hmem
      obtain ⟨upper, hprefix, hshorter⟩ := hupper.exists_isChain_of_mem hmem
      have hsame := hshorter.unique (.child hupper hpath hfollow)
      have hlength := hprefix.length_le
      rw [hsame, List.length_append, List.length_singleton] at hlength
      omega
    rw [List.nodup_append]
    refine ⟨ih, List.nodup_singleton _, ?_⟩
    intro e he e' he' heq
    rw [List.mem_singleton] at he'
    exact hnew (he' ▸ heq ▸ he)

/-- The walk up a chain that begins below what was visited answers with both. -/
theorem answer_climb (h : g.IsChain project chain id) {below : List EntityId}
    (hnew : ∀ e ∈ chain, e ∉ below) (followed : List ElementPath) :
    (g.climb project id below followed).answer = .ok (chain ++ below) := by
  induction h generalizing below followed with
  | @root id hroot =>
    rw [climb]
    split
    next => rfl
    next path hpath =>
      split
      next fault hfault => cases hfault.symm.trans (hroot path hpath)
      next => rfl
      next parent hparent => cases hparent.symm.trans (hroot path hpath)
  | @child chain parent id path hupper hpath hfollow ih =>
    have hnodup := (IsChain.child hupper hpath hfollow).nodup
    rw [List.nodup_append] at hnodup
    have hfresh : ∀ e ∈ chain, e ∉ id :: below := by
      intro e he hmem
      rcases List.mem_cons.mp hmem with heq | hbelow
      · exact hnodup.2.2 e he id (List.mem_singleton_self id) heq
      · exact hnew e (List.mem_append_left _ he) hbelow
    rw [climb]
    split
    next hnone => cases hnone.symm.trans hpath
    next path' hpath' =>
      cases hpath.symm.trans hpath'
      split
      next fault hfault => cases hfault.symm.trans hfollow
      next hnone => cases hnone.symm.trans hfollow
      next parent' hparent' =>
        cases hfollow.symm.trans hparent'
        rw [dif_neg (hfresh parent hupper.self_mem), ih hfresh, List.append_assoc]
        rfl

/-- The ancestors of an entity with a chain are the chain. -/
theorem answer_ancestors (h : g.IsChain project chain id) :
    (g.ancestors project id).answer = .ok chain := by
  have hfresh : ∀ e ∈ chain, e ∉ ([] : List EntityId) := fun _ _ ↦ List.not_mem_nil
  have hclimb := h.answer_climb hfresh []
  rw [List.append_nil] at hclimb
  exact hclimb

end IsChain

variable {g : Graph} {project : Option (Project EntityId)} {id : EntityId}

/-- A walk that answers has gone up a chain. -/
theorem exists_isChain_of_answer_climb {below : List EntityId} {followed : List ElementPath}
    {found : List EntityId} (h : (g.climb project id below followed).answer = .ok found) :
    ∃ chain, g.IsChain project chain id ∧ found = chain ++ below := by
  fun_induction climb g project id below followed with
  | case1 id below followed hnone =>
    cases h
    exact ⟨[id], .root fun path hpath ↦ (by cases hnone.symm.trans hpath), rfl⟩
  | case2 => cases h
  | case3 id below followed path hpath hfollow =>
    cases h
    refine ⟨[id], .root fun path' hpath' ↦ ?_, rfl⟩
    cases hpath.symm.trans hpath'
    exact hfollow
  | case4 => cases h
  | case5 id below followed path hpath parent hfollow hnew ih =>
    obtain ⟨upper, hupper, rfl⟩ := ih h
    exact ⟨upper ++ [id], .child hupper hpath hfollow, List.append_cons upper id below⟩

/-- The ancestors of an entity are its chain, and there are none without one. -/
theorem answer_ancestors_eq_ok_iff {chain : List EntityId} :
    (g.ancestors project id).answer = .ok chain ↔ g.IsChain project chain id := by
  constructor
  · intro h
    obtain ⟨upper, hupper, rfl⟩ := exists_isChain_of_answer_climb h
    rw [List.append_nil]
    exact hupper
  · exact IsChain.answer_ancestors

end EntityGraph.Graph
