import EntityGraph.Proofs.Value.Reordering
import Mathlib.Data.List.Perm.Subperm

/-!
# Equality of values

Values are compared as members of a container by going down the first of the two: every key of the
first mapping is looked for in the second, and every member of the first set. So it has to be shown
that the comparison does not depend on which value is the first. What carries this is that no two
keys of a mapping are the same. Then different keys of one mapping are found at different keys of
the other, and as there are equally many, every key of the other is found in this way.

`isProper` says of a value that the keys of its mappings and the members of its sets are of this
kind, everywhere in it.
-/

namespace EntityGraph

/-- A relation that leads from all members of a list to members of a list of the same length, and
never from two of them to the same one, is onto. -/
theorem Rearranged.of_length_eq {α β : Type} {r : α → β → Prop} {s : List α} {t : List β}
    (hlength : s.length = t.length) (hpartner : ∀ a ∈ s, ∃ b ∈ t, r a b)
    (hdistinct : s.Pairwise fun a a' ↦ ∀ b, r a b → ¬ r a' b) : Rearranged r s t := by
  have hpartners : ∃ u, List.Forall₂ r s u ∧ u ⊆ t ∧ u.Nodup := by
    clear hlength
    induction s with
    | nil => exact ⟨[], .nil, List.nil_subset t, List.nodup_nil⟩
    | cons a s ih =>
      obtain ⟨⟨b, hb, hab⟩, hrest⟩ := List.forall_mem_cons.mp hpartner
      obtain ⟨hfirst, hothers⟩ := List.pairwise_cons.mp hdistinct
      obtain ⟨u, hu, hsub, hnodup⟩ := ih hrest hothers
      refine ⟨b :: u, .cons hab hu, List.cons_subset.mpr ⟨hb, hsub⟩,
        List.nodup_cons.mpr ⟨fun hmem ↦ ?_, hnodup⟩⟩
      obtain ⟨a', ha', ha'b⟩ := (Rearranged.of_forall₂ hu).exists_left hmem
      exact hfirst a' ha' b hab ha'b
  obtain ⟨u, hu, hsub, hnodup⟩ := hpartners
  have hlengths : t.length = u.length := hlength.symm.trans hu.length_eq
  exact ⟨u, hu, (List.subperm_of_subset hnodup hsub).perm_of_length_le
    (Nat.le_of_eq hlengths)⟩

/-! ## Keys -/

theorem Number.same_trans {a b c : Number} (hab : a.same b = true) (hbc : b.same c = true) :
    a.same c = true := by
  rw [Number.same, Bool.or_eq_true, beq_iff_eq] at hab hbc
  rcases hab with hab | rfl
  · rcases hbc with hbc | rfl
    · rw [Number.same, Bool.or_eq_true]
      left
      rw [Number.eq] at hab hbc ⊢
      cases ha : a.extent? <;> cases hb : b.extent? <;> cases hc : c.extent? <;> simp_all
    · rw [Number.same, hab]
      rfl
  · rw [Number.same, Bool.or_eq_true, beq_iff_eq]
    exact hbc

namespace Value

/-- A number is compared with the number that the other value stands for, if it stands for one. -/
theorem same_eq_of_number? {v w : Value} {a : Number} (h : v.number? = some a) :
    v.same w = match w.number? with
      | some b => a.same b
      | none => false := by
  cases v with
  | bool b => cases h; cases w <;> simp [same, number?]
  | int n => cases h; cases w <;> simp [same, number?]
  | float x => cases h; cases w <;> simp [same, number?]
  | _ => cases h

theorem same_trans {u v w : Value} (hu : u.isKey = true) (huv : u.same v = true)
    (hvw : v.same w = true) : u.same w = true := by
  cases hnumber : u.number? with
  | some a =>
    rw [same_eq_of_number? hnumber] at huv ⊢
    split at huv
    next b hb =>
      rw [same_eq_of_number? hb] at hvw
      split at hvw
      next c hc => exact Number.same_trans huv hvw
      next => cases hvw
    next => cases huv
  | none =>
    cases u with
    | pair a b =>
      rw [isKey, Bool.and_eq_true] at hu
      cases v with
      | pair c d =>
        cases w with
        | pair e f =>
          rw [same, Bool.and_eq_true] at huv hvw ⊢
          exact ⟨same_trans hu.1 huv.1 hvw.1, same_trans hu.2 huv.2 hvw.2⟩
        | _ => simp [same, number?] at hvw
      | _ => simp [same, number?] at huv
    | seq items => cases hu
    | map entries => cases hu
    | set items => cases hu
    | _ =>
      -- What is left is the same only as values of its own kind.
      cases v <;> simp [same, number?] at huv
      all_goals cases w <;> simp_all [same, number?, Moment.same]

/-- Whether values can be keys and no two of them are the same. -/
def areNames : List Value → Bool
  | [] => true
  | v :: rest => v.isKey && !(rest.any fun w ↦ v.same w) && areNames rest

theorem areNames_cons {v : Value} {rest : List Value} :
    areNames (v :: rest) = true ↔
      v.isKey = true ∧ (∀ w ∈ rest, v.same w = false) ∧ areNames rest = true := by
  simp only [areNames, Bool.and_eq_true, Bool.not_eq_true', List.any_eq_false, Bool.not_eq_true,
    and_assoc]

theorem areNames_iff {vs : List Value} :
    areNames vs = true ↔
      vs.Pairwise (fun v w ↦ v.same w = false) ∧ ∀ v ∈ vs, v.isKey = true := by
  induction vs with
  | nil => simp [areNames]
  | cons v rest ih =>
    rw [areNames_cons, ih, List.pairwise_cons, List.forall_mem_cons]
    constructor
    · rintro ⟨hkey, hfirst, hrest, hkeys⟩
      exact ⟨⟨hfirst, hrest⟩, hkey, hkeys⟩
    · rintro ⟨⟨hfirst, hrest⟩, hkey, hkeys⟩
      exact ⟨hkey, hfirst, hrest, hkeys⟩

/-- The order of names does not matter. -/
theorem areNames_of_perm {vs ws : List Value} (hperm : vs.Perm ws) (h : areNames vs = true) :
    areNames ws = true := by
  obtain ⟨hpairs, hkeys⟩ := areNames_iff.mp h
  have hboth : vs.Pairwise fun v w ↦ v.isKey = true ∧ w.isKey = true ∧ v.same w = false :=
    hpairs.imp_of_mem fun hv hw hdiffer ↦ ⟨hkeys _ hv, hkeys _ hw, hdiffer⟩
  have hsymm : ∀ {v w : Value}, v.isKey = true ∧ w.isKey = true ∧ v.same w = false →
      w.isKey = true ∧ v.isKey = true ∧ w.same v = false := by
    rintro v w ⟨hv, hw, hdiffer⟩
    exact ⟨hw, hv, by rw [← same_comm hv, hdiffer]⟩
  refine areNames_iff.mpr ⟨((hperm.pairwise_iff hsymm).mp hboth).imp fun hpair ↦ hpair.2.2, ?_⟩
  exact fun w hw ↦ hkeys w (hperm.mem_iff.mpr hw)

/-- Two values that are the same as a third are the same. -/
theorem same_of_same_right {u v w : Value} (hu : u.isKey = true) (hv : v.isKey = true)
    (huw : u.same w = true) (hvw : v.same w = true) : u.same v = true :=
  same_trans hu huw (by rw [← same_comm hv, hvw])

/-! ## Proper values -/

mutual

/-- Whether no mapping in a value has two keys that are the same, and no set two such members. -/
def isProper : Value → Bool
  | .seq items => areProper items
  | .pair a b => isProper a && isProper b
  | .map entries => areNames (Table.names entries) && entriesProper entries
  | .set items => areNames items
  | _ => true
termination_by structural v => v

/-- The same for each of some values. -/
def areProper : List Value → Bool
  | [] => true
  | v :: rest => isProper v && areProper rest
termination_by structural vs => vs

/-- The same for the values of some entries. -/
def entriesProper : List (Value × Value) → Bool
  | [] => true
  | (_, v) :: rest => isProper v && entriesProper rest
termination_by structural entries => entries

end

theorem entriesProper_iff {entries : List (Value × Value)} :
    entriesProper entries = true ↔ ∀ e ∈ entries, e.2.isProper = true := by
  induction entries with
  | nil => simp [entriesProper]
  | cons e entries ih =>
    obtain ⟨key, v⟩ := e
    rw [entriesProper, Bool.and_eq_true, ih, List.forall_mem_cons]

theorem isProper_map_iff {entries : List (Value × Value)} :
    (Value.map entries).isProper = true ↔
      areNames (Table.names entries) = true ∧ ∀ e ∈ entries, e.2.isProper = true := by
  rw [isProper, Bool.and_eq_true, entriesProper_iff]

theorem isProper_field {v : Value} (h : v.isProper = true) (key : Text) :
    (v.field key).isProper = true := by
  refine field_of_forall (p := fun w ↦ w.isProper = true) rfl ?_ key
  rintro entries rfl e he
  exact (isProper_map_iff.mp h).2 e he

/-! ## Symmetry -/

/-- Two entries with the same key and the same value. -/
def SameEntry (e f : Value × Value) : Prop := e.1.same f.1 = true ∧ e.2.same f.2 = true

/-- Members of a container that is as large as another and has all its members there have every
member of the other among them. -/
theorem exists_same_of_length_eq {vs ws : List Value} (hvs : areNames vs = true)
    (hlength : vs.length = ws.length) (h : ∀ v ∈ vs, ∃ w ∈ ws, v.same w = true) :
    ∀ w ∈ ws, ∃ v ∈ vs, v.same w = true := by
  obtain ⟨hpairs, hkeys⟩ := areNames_iff.mp hvs
  have hdistinct : vs.Pairwise fun v v' ↦ ∀ w, v.same w = true → ¬ v'.same w = true := by
    refine hpairs.imp_of_mem fun hv hv' hdiffer w hw hw' ↦ ?_
    rw [same_of_same_right (hkeys _ hv) (hkeys _ hv') hw hw'] at hdiffer
    cases hdiffer
  exact fun w hw ↦ (Rearranged.of_length_eq hlength h hdistinct).exists_left hw

/-- And likewise for entries. -/
theorem exists_sameEntry_of_length_eq {xs ys : List (Value × Value)}
    (hxs : areNames (Table.names xs) = true) (hlength : xs.length = ys.length)
    (h : ∀ e ∈ xs, ∃ f ∈ ys, SameEntry e f) : ∀ f ∈ ys, ∃ e ∈ xs, SameEntry e f := by
  obtain ⟨hpairs, hkeys⟩ := areNames_iff.mp hxs
  have hkey {e : Value × Value} (he : e ∈ xs) : e.1.isKey = true :=
    hkeys _ (List.mem_map_of_mem he)
  have hdistinct : xs.Pairwise fun e e' ↦ ∀ f, SameEntry e f → ¬ SameEntry e' f := by
    refine (List.pairwise_map.mp hpairs).imp_of_mem fun he he' hdiffer f hf hf' ↦ ?_
    rw [same_of_same_right (hkey he) (hkey he') hf.1 hf'.1] at hdiffer
    cases hdiffer
  exact fun f hf ↦ (Rearranged.of_length_eq hlength h hdistinct).exists_left hf

/-- What is found under a name is what stands under one that is the same. -/
theorem find?_eq_some_of_same {α : Type} {t : Table α} {name : Value} {e : Value × α}
    (hnames : areNames t.names = true) (hname : name.isKey = true) (he : e ∈ t)
    (hsame : name.same e.1 = true) : t.find? name = some e.2 := by
  induction t with
  | nil => cases he
  | cons first rest ih =>
    obtain ⟨key, item⟩ := first
    obtain ⟨-, hfirst, hrest⟩ := areNames_cons.mp hnames
    rw [Table.find?_cons]
    rcases List.mem_cons.mp he with rfl | he
    · rw [if_pos hsame]
    · have hother : ¬ name.same key = true := by
        intro hkey
        have hboth : key.same e.1 = true :=
          same_trans (areNames_cons.mp hnames).1 (by rw [← same_comm hname, hkey]) hsame
        rw [hfirst _ (List.mem_map_of_mem he)] at hboth
        cases hboth
      rw [if_neg hother]
      exact ih hrest he

theorem exists_mem_of_find? {α : Type} {t : Table α} {name : Value} {item : α}
    (h : t.find? name = some item) : ∃ key, (key, item) ∈ t ∧ name.same key = true := by
  rw [Table.find?, Option.map_eq_some_iff] at h
  obtain ⟨⟨key, found⟩, hfound, rfl⟩ := h
  have hkey := List.find?_some hfound
  exact ⟨key, List.mem_of_find?_eq_some hfound, hkey⟩

/-- In proper mappings, the entries of one are in the other if each of them has the same there. -/
theorem entriesIn_iff_forall_exists {xs ys : List (Value × Value)}
    (hxs : areNames (Table.names xs) = true) (hys : areNames (Table.names ys) = true) :
    entriesIn xs ys = true ↔ ∀ e ∈ xs, ∃ f ∈ ys, SameEntry e f := by
  rw [entriesIn_iff]
  refine forall₂_congr fun e he ↦ ?_
  constructor
  · rintro ⟨w, hfound, hsame⟩
    obtain ⟨key, hmem, hkey⟩ := exists_mem_of_find? hfound
    exact ⟨(key, w), hmem, hkey, hsame⟩
  · rintro ⟨f, hf, hkey, hsame⟩
    exact ⟨f.2, find?_eq_some_of_same hys
      ((areNames_iff.mp hxs).2 _ (List.mem_map_of_mem he)) hf hkey, hsame⟩

theorem itemsIn_iff {xs ys : List Value} :
    itemsIn xs ys = true ↔ ∀ x ∈ xs, ∃ y ∈ ys, x.same y = true := by
  induction xs with
  | nil => simp [itemsIn]
  | cons x xs ih => rw [itemsIn, Bool.and_eq_true, ih, List.forall_mem_cons, List.any_eq_true]

mutual

/-- Of two proper values it does not matter which is compared with the other. -/
theorem same_symm (v w : Value) (hv : v.isProper = true) (hw : w.isProper = true)
    (h : v.same w = true) : w.same v = true := by
  cases v with
  | seq xs =>
    cases w with
    | seq ys => exact sameItems_symm xs ys hv hw h
    | _ => simp [same, number?] at h
  | pair a b =>
    cases w with
    | pair c d =>
      rw [isProper, Bool.and_eq_true] at hv hw
      rw [same, Bool.and_eq_true] at h ⊢
      exact ⟨same_symm a c hv.1 hw.1 h.1, same_symm b d hv.2 hw.2 h.2⟩
    | _ => simp [same, number?] at h
  | map xs =>
    cases w with
    | map ys =>
      obtain ⟨hxs, hxvalues⟩ := isProper_map_iff.mp hv
      obtain ⟨hys, hyvalues⟩ := isProper_map_iff.mp hw
      rw [same, Bool.and_eq_true, beq_iff_eq, entriesIn_iff_forall_exists hxs hys] at h
      rw [same, Bool.and_eq_true, beq_iff_eq, entriesIn_iff_forall_exists hys hxs]
      refine ⟨h.1.symm, fun f hf ↦ ?_⟩
      obtain ⟨e, he, hkey, hvalue⟩ := exists_sameEntry_of_length_eq hxs h.1 h.2 f hf
      refine ⟨e, he, ?_, sameValues_symm xs e he f.2 (hxvalues e he) (hyvalues f hf) hvalue⟩
      rw [same_comm ((areNames_iff.mp hys).2 _ (List.mem_map_of_mem hf)), hkey]
    | _ => simp [same, number?] at h
  | set xs =>
    cases w with
    | set ys =>
      rw [same, Bool.and_eq_true, beq_iff_eq, itemsIn_iff] at h ⊢
      refine ⟨h.1.symm, fun y hy ↦ ?_⟩
      obtain ⟨x, hx, hxy⟩ := exists_same_of_length_eq hv h.1 h.2 y hy
      exact ⟨x, hx, by rw [same_comm ((areNames_iff.mp hw).2 y hy), hxy]⟩
    | _ => simp [same, number?] at h
  | _ => rw [← same_comm rfl, h]

theorem sameItems_symm (xs ys : List Value) (hxs : areProper xs = true) (hys : areProper ys = true)
    (h : sameItems xs ys = true) : sameItems ys xs = true := by
  cases xs with
  | nil =>
    cases ys with
    | nil => rfl
    | cons y ys => cases h
  | cons x xs =>
    cases ys with
    | nil => cases h
    | cons y ys =>
      rw [areProper, Bool.and_eq_true] at hxs hys
      rw [sameItems, Bool.and_eq_true] at h ⊢
      exact ⟨same_symm x y hxs.1 hys.1 h.1, sameItems_symm xs ys hxs.2 hys.2 h.2⟩

/-- The same for the values of entries. -/
theorem sameValues_symm (entries : List (Value × Value)) (e : Value × Value) (he : e ∈ entries)
    (w : Value) (hv : e.2.isProper = true) (hw : w.isProper = true) (h : e.2.same w = true) :
    w.same e.2 = true := by
  cases entries with
  | nil => cases he
  | cons first rest =>
    obtain ⟨key, v⟩ := first
    rcases List.mem_cons.mp he with rfl | he
    · exact same_symm v w hv hw h
    · exact sameValues_symm rest e he w hv hw h

end

theorem same_comm_of_isProper {v w : Value} (hv : v.isProper = true) (hw : w.isProper = true) :
    v.same w = w.same v :=
  Bool.eq_iff_iff.mpr ⟨same_symm v w hv hw, same_symm w v hw hv⟩

end Value

end EntityGraph
