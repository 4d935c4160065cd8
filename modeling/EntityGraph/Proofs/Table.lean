import EntityGraph.Proofs.Model.Reading
import Mathlib.Data.List.Perm.Basic

/-!
# Tables in another order

`Rearranged r s t` says that the list `t` is the list `s` in another order, with every member
replaced by one that `r` relates to it. Whatever is computed from each member by itself and put
together is then rearranged in the same way.

In a table whose names are texts and differ, a name leads to the one item that stands under it,
wherever in the table that is. So two such tables that are rearrangements of each other, name by
name, answer alike whatever they are asked for.
-/

namespace EntityGraph

variable {κ α β γ δ : Type}

/-! ## Lists -/

/-- Whether a list is another one with its members in another order, each replaced by one that is
related to it. -/
def Rearranged (r : α → β → Prop) (s : List α) (t : List β) : Prop :=
  ∃ u, List.Forall₂ r s u ∧ u.Perm t

/-- Two entries of the same name whose items are related. -/
def Entrywise (r : α → β → Prop) (e : κ × α) (f : κ × β) : Prop := e.1 = f.1 ∧ r e.2 f.2

namespace Rearranged

variable {r : α → β → Prop} {q : γ → δ → Prop} {s : List α} {t : List β}

theorem of_forall₂ (h : List.Forall₂ r s t) : Rearranged r s t := ⟨t, h, .refl t⟩

theorem perm_right {t' : List β} (h : Rearranged r s t) (hperm : t.Perm t') :
    Rearranged r s t' := by
  obtain ⟨u, hforall, hu⟩ := h
  exact ⟨u, hforall, hu.trans hperm⟩

theorem imp {r' : α → β → Prop} (h : Rearranged r s t) (hr : ∀ a b, r a b → r' a b) :
    Rearranged r' s t := by
  obtain ⟨u, hforall, hperm⟩ := h
  exact ⟨u, hforall.imp hr, hperm⟩

theorem exists_right (h : Rearranged r s t) {a : α} (ha : a ∈ s) : ∃ b ∈ t, r a b := by
  obtain ⟨u, hforall, hperm⟩ := h
  have hu : ∃ b ∈ u, r a b := by
    clear hperm
    induction hforall with
    | nil => cases ha
    | @cons a' b' s u hab _ ih =>
      rcases List.mem_cons.mp ha with rfl | ha
      · exact ⟨b', List.mem_cons_self, hab⟩
      · obtain ⟨b, hb, hrel⟩ := ih ha
        exact ⟨b, List.mem_cons_of_mem _ hb, hrel⟩
  obtain ⟨b, hb, hrel⟩ := hu
  exact ⟨b, hperm.mem_iff.mp hb, hrel⟩

theorem exists_left (h : Rearranged r s t) {b : β} (hb : b ∈ t) : ∃ a ∈ s, r a b := by
  obtain ⟨u, hforall, hperm⟩ := h
  exact (of_forall₂ hforall.flip).exists_right (hperm.mem_iff.mpr hb)

/-- The members of the lists may be used as such. -/
theorem mem (h : Rearranged r s t) : Rearranged (fun a b ↦ a ∈ s ∧ b ∈ t ∧ r a b) s t := by
  obtain ⟨u, hforall, hperm⟩ := h
  have hright : List.Forall₂ (fun a b ↦ b ∈ t ∧ r a b) s u := by
    have hflip := (List.forall₂_and_left u s).mpr ⟨fun b hb ↦ hperm.mem_iff.mp hb, hforall.flip⟩
    exact hflip.flip
  exact ⟨u, (List.forall₂_and_left s u).mpr ⟨fun _ ha ↦ ha, hright⟩, hperm⟩

theorem length_eq (h : Rearranged r s t) : s.length = t.length := by
  obtain ⟨u, hforall, hperm⟩ := h
  rw [hforall.length_eq, hperm.length_eq]

theorem append {s' : List α} {t' : List β} (h : Rearranged r s t) (h' : Rearranged r s' t') :
    Rearranged r (s ++ s') (t ++ t') := by
  obtain ⟨u, hforall, hperm⟩ := h
  obtain ⟨u', hforall', hperm'⟩ := h'
  exact ⟨u ++ u', List.rel_append hforall hforall', hperm.append hperm'⟩

theorem map {f : α → γ} {g : β → δ} (h : Rearranged r s t) (hfg : ∀ a b, r a b → q (f a) (g b)) :
    Rearranged q (s.map f) (t.map g) := by
  obtain ⟨u, hforall, hperm⟩ := h
  refine ⟨u.map g, ?_, hperm.map g⟩
  rw [List.forall₂_map_left_iff, List.forall₂_map_right_iff]
  exact hforall.imp hfg

/-- Images are rearranged only if what they are the images of is. -/
theorem of_map {f : γ → α} {g : δ → β} {s : List γ} {t : List δ}
    (h : Rearranged r (s.map f) (t.map g)) : Rearranged (fun a b ↦ r (f a) (g b)) s t := by
  obtain ⟨u, hforall, hperm⟩ := h
  have himage : List.Forall₂ (fun b d ↦ b = g d) (t.map g) t := by
    rw [List.forall₂_map_left_iff, List.forall₂_same]
    exact fun _ _ ↦ rfl
  obtain ⟨v, huv, hvt⟩ := List.perm_comp_forall₂ hperm himage
  refine ⟨v, ?_, hvt⟩
  rw [List.forall₂_map_left_iff] at hforall
  clear himage hvt hperm
  induction hforall generalizing v with
  | nil =>
    cases huv
    exact .nil
  | cons hab _ ih =>
    cases huv with
    | cons hb hrest => exact .cons (hb ▸ hab) (ih _ hrest)

theorem flatMap {f : α → List γ} {g : β → List δ} (h : Rearranged r s t)
    (hfg : ∀ a b, r a b → Rearranged q (f a) (g b)) :
    Rearranged q (s.flatMap f) (t.flatMap g) := by
  obtain ⟨u, hforall, hperm⟩ := h
  have hu : Rearranged q (s.flatMap f) (u.flatMap g) := by
    clear hperm
    induction hforall with
    | nil => exact of_forall₂ .nil
    | cons hab _ ih =>
      rw [List.flatMap_cons, List.flatMap_cons]
      exact (hfg _ _ hab).append ih
  exact hu.perm_right (hperm.flatMap_right g)

/-- A rearrangement by equality is a permutation. -/
theorem eq_iff {s t : List α} : Rearranged Eq s t ↔ s.Perm t := by
  constructor
  · rintro ⟨u, hforall, hperm⟩
    rw [List.forall₂_eq_eq_eq] at hforall
    rw [hforall]
    exact hperm
  · intro hperm
    refine ⟨s, ?_, hperm⟩
    rw [List.forall₂_eq_eq_eq]

end Rearranged

/-! ## Names -/

/-- A text is the same as itself and as nothing else. -/
theorem Value.same_iff_of_isText {v w : Value} (h : w.isText = true) : v.same w = true ↔ v = w := by
  obtain ⟨t, rfl⟩ := isText_iff.mp h
  cases v <;> simp [same, number?]

namespace Table

/-- Whether the names of a table are texts and no two of them are the same. -/
structure HasTextNames (t : Table α) : Prop where
  texts : ∀ n ∈ t.names, n.isText = true
  nodup : t.names.Nodup

variable {t : Table α}

theorem get_eq_ok_iff {name : Value} {found : Option α} :
    t.get name = .ok found ↔ name.isKey = true ∧ t.find? name = found := by
  rw [get]
  cases name.isKey with
  | true => simp
  | false => simp

theorem get_eq_error_iff {name : Value} {fault : Fault} :
    t.get name = .error fault ↔ name.isKey = false ∧ fault = .notAKey name.kind := by
  rw [get]
  cases name.isKey with
  | true => simp
  | false => simp [eq_comm]

theorem mem_names_of_mem {e : Value × α} (he : e ∈ t) : e.1 ∈ t.names :=
  List.mem_map_of_mem (f := fun e ↦ e.1) he

theorem HasTextNames.isText_of_mem {e : Value × α} (h : t.HasTextNames) (he : e ∈ t) :
    e.1.isText = true :=
  h.texts e.1 (mem_names_of_mem he)

theorem HasTextNames.nil : HasTextNames ([] : Table α) where
  texts := fun _ hn ↦ absurd hn List.not_mem_nil
  nodup := List.nodup_nil

theorem hasTextNames_cons {name : Value} {item : α} :
    HasTextNames ((name, item) :: t) ↔ name.isText = true ∧ name ∉ t.names ∧ t.HasTextNames := by
  constructor
  · rintro ⟨htexts, hnodup⟩
    obtain ⟨hname, hrest⟩ := List.forall_mem_cons.mp htexts
    obtain ⟨hnew, hdistinct⟩ := List.nodup_cons.mp hnodup
    exact ⟨hname, hnew, hrest, hdistinct⟩
  · rintro ⟨hname, hnew, hrest⟩
    exact ⟨List.forall_mem_cons.mpr ⟨hname, hrest.texts⟩, List.nodup_cons.mpr ⟨hnew, hrest.nodup⟩⟩

/-- Names that are left out do not matter to the others. -/
theorem HasTextNames.sublist {s : Table β} (h : t.HasTextNames)
    (hs : s.names.Sublist t.names) : s.HasTextNames where
  texts := fun n hn ↦ h.texts n (hs.subset hn)
  nodup := h.nodup.sublist hs

/-- A name leads to the item that stands under it. -/
theorem HasTextNames.find?_eq_some_iff (h : t.HasTextNames) {name : Value} {item : α} :
    t.find? name = some item ↔ (name, item) ∈ t := by
  induction t with
  | nil =>
    constructor
    · intro hfound
      cases hfound
    · intro hmem
      cases hmem
  | cons e t ih =>
    obtain ⟨n, i⟩ := e
    obtain ⟨hn, hnew, hrest⟩ := hasTextNames_cons.mp h
    have hsame := Value.same_iff_of_isText (v := name) hn
    rw [find?_cons, List.mem_cons]
    by_cases hname : name = n
    · rw [if_pos (hsame.mpr hname), hname]
      constructor
      · intro hi
        cases hi
        exact Or.inl rfl
      · rintro (heq | hmem)
        · cases heq
          rfl
        · exact absurd (mem_names_of_mem hmem) hnew
    · rw [if_neg (mt hsame.mp hname), ih hrest]
      constructor
      · exact Or.inr
      · rintro (heq | hmem)
        · cases heq
          exact absurd rfl hname
        · exact hmem

end Table

namespace Rearranged

section Names

variable {q : Value × α → Value × β → Prop} {s : Table α} {t : Table β}

theorem perm_names (h : Rearranged q s t) (hq : ∀ e f, q e f → e.1 = f.1) :
    s.names.Perm t.names := eq_iff.mp (h.map hq)

theorem hasTextNames (h : Rearranged q s t) (hq : ∀ e f, q e f → e.1 = f.1)
    (hs : s.HasTextNames) : t.HasTextNames where
  texts := fun n hn ↦ hs.texts n ((h.perm_names hq).mem_iff.mpr hn)
  nodup := (h.perm_names hq).nodup_iff.mp hs.nodup

/-- A name leads to related items in both tables, or to none in either. -/
theorem find? (h : Rearranged q s t) (hq : ∀ e f, q e f → e.1 = f.1) (hs : s.HasTextNames)
    (name : Value) :
    Option.Rel (fun a b ↦ q (name, a) (name, b)) (s.find? name) (t.find? name) := by
  have ht := h.hasTextNames hq hs
  cases hfound : s.find? name with
  | some item =>
    obtain ⟨⟨n, other⟩, hmem, hrel⟩ := h.exists_right (hs.find?_eq_some_iff.mp hfound)
    cases hq _ _ hrel
    rw [ht.find?_eq_some_iff.mpr hmem]
    exact .some hrel
  | none =>
    cases hother : t.find? name with
    | none => exact .none
    | some other =>
      -- The name is one of both tables, so it leads somewhere in the first as well.
      have hname : name ∈ s.names := by
        rw [(h.perm_names hq).mem_iff]
        exact Table.mem_names_of_mem (ht.find?_eq_some_iff.mp hother)
      obtain ⟨⟨n, item⟩, hmem, rfl⟩ := List.mem_map.mp hname
      rw [hs.find?_eq_some_iff.mpr hmem] at hfound
      cases hfound

end Names

/-- The item of every name is in both tables, and related. -/
theorem exists_find? {r : α → β → Prop} {s : Table α} {t : Table β}
    (h : Rearranged (Entrywise r) s t) (hs : s.HasTextNames) {e : Value × α} (he : e ∈ s) :
    ∃ other, t.find? e.1 = some other ∧ r e.2 other := by
  have hq : ∀ (e : Value × α) (f : Value × β), Entrywise r e f → e.1 = f.1 :=
    fun _ _ hentry ↦ hentry.1
  obtain ⟨⟨n, other⟩, hmem, hname, hrel⟩ := h.exists_right he
  refine ⟨other, (h.hasTextNames hq hs).find?_eq_some_iff.mpr ?_, hrel⟩
  rw [hname]
  exact hmem

/-- Tables are the same if they are rearrangements of each other with the same items. -/
theorem same {s t : Table α} {sameItem : α → α → Bool}
    (h : Rearranged (Entrywise fun a b ↦ sameItem a b = true) s t) (hs : s.HasTextNames) :
    s.same sameItem t = true := by
  rw [Table.same, Bool.and_eq_true, beq_iff_eq, List.all_eq_true]
  refine ⟨h.length_eq, ?_⟩
  intro e he
  obtain ⟨other, hother, hsame⟩ := h.exists_find? hs he
  simpa only [hother] using hsame

end Rearranged

end EntityGraph
