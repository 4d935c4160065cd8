import EntityGraph.Proofs.Value.Parts
import EntityGraph.Schema.Validation

/-!
# The paths of violations

A check that goes down to a part of a value puts the key of the part before the paths that it finds
there. So what is known of the path of a violation where it is found, and stays true with another
key before it, is true of every violation; `forall_check` says this for any such property. One of
them is that the path leads to a part of the value that was checked, whatever the schema, if the
keys of the value are texts and differ.
-/

namespace EntityGraph.Schema

/-- A property of violations that a check keeps on its way: it holds of a violation at the value
itself, and below a key of a mapping it goes over to the mapping. -/
structure GoesUp (domain : Value → Prop) (property : Value → Violation → Prop) : Prop where
  root {v : Value} {x : Violation} : x.path = [] → property v x
  part {entries : List (Value × Value)} {e : Value × Value} :
    domain (.map entries) → e ∈ entries → domain e.2
  /-- A key that is null is no step of the path. -/
  null {entries : List (Value × Value)} {e : Value × Value} {x : Violation} :
    domain (.map entries) → e ∈ entries → e.1.isNull = true → property e.2 x →
      property (.map entries) x
  key {entries : List (Value × Value)} {e : Value × Value} {x : Violation} :
    domain (.map entries) → e ∈ entries → e.1.isNull = false → property e.2 x →
      property (.map entries) { x with path := e.1 :: x.path }

namespace GoesUp

variable {defs : Definitions} {domain : Value → Prop} {property : Value → Violation → Prop}
  {v : Value}

theorem forall_here (h : GoesUp domain property) {cause : Cause} :
    ∀ x ∈ here cause, property v x := by
  rw [here, List.forall_mem_singleton]
  exact h.root rfl

theorem forall_ite_here (h : GoesUp domain property) {test : Prop} [Decidable test]
    {cause : Cause} : ∀ x ∈ (if test then [] else here cause), property v x := by
  split
  next => exact fun x hx ↦ absurd hx List.not_mem_nil
  next => exact h.forall_here

/-- What is found below a key is found in the mapping. A schema that does not tell the key finds
nothing but at the part itself. -/
theorem forall_underKey (h : GoesUp domain property) {entries : List (Value × Value)}
    (hv : domain (.map entries)) {e : Value × Value} (he : e ∈ entries) {s : Schema} {budget : Nat}
    (hpart : ∀ x ∈ check defs budget s e.2, property e.2 x) :
    ∀ x ∈ underKey e.1 s (check defs budget s e.2), property (.map entries) x := by
  have hunder : ∀ x ∈ under e.1 (check defs budget s e.2), property (.map entries) x := by
    rw [under]
    split
    next hnull => exact fun x hx ↦ h.null hv he hnull (hpart x hx)
    next hkey =>
      rw [List.forall_mem_map]
      exact fun x hx ↦ h.key hv he (Bool.not_eq_true _ ▸ hkey) (hpart x hx)
  cases s with
  | always accepts =>
    rw [underKey, check]
    cases accepts with
    | true => exact fun x hx ↦ absurd hx List.not_mem_nil
    | false => exact h.forall_here
  | reference target source => exact hunder
  | all ks source => exact hunder

end GoesUp

section Alternatives

variable {domain : Value → Prop} {property : Value → Violation → Prop}
  (h : GoesUp domain property) {v : Value} {branches : List (Schema × List Violation)}

include h

theorem forall_chooseLater {first : Schema} {met : List Schema}
    (hbranches : ∀ b ∈ branches, ∀ x ∈ b.2, property v x) :
    ∀ x ∈ chooseLater v first met branches, property v x := by
  induction branches generalizing met with
  | nil =>
    rw [chooseLater]
    split
    next => exact fun x hx ↦ absurd hx List.not_mem_nil
    next => exact h.forall_here
  | cons b branches ih =>
    obtain ⟨s, vs⟩ := b
    obtain ⟨hfirst, hrest⟩ := List.forall_mem_cons.mp hbranches
    cases vs with
    | nil => exact ih hrest
    | cons found others =>
      rw [chooseLater]
      split
      next =>
        rw [List.forall_mem_singleton]
        exact hfirst found List.mem_cons_self
      next => exact ih hrest

theorem forall_choose (hbranches : ∀ b ∈ branches, ∀ x ∈ b.2, property v x) :
    ∀ x ∈ choose v branches, property v x := by
  induction branches with
  | nil => exact h.forall_here
  | cons b branches ih =>
    obtain ⟨s, vs⟩ := b
    obtain ⟨hfirst, hrest⟩ := List.forall_mem_cons.mp hbranches
    cases vs with
    | nil => exact forall_chooseLater h hrest
    | cons found others =>
      rw [choose]
      · split
        next broken hbroken =>
          rw [List.forall_mem_singleton]
          exact hfirst broken (List.mem_of_find?_eq_some hbroken)
        next => exact ih hrest
      · simp

end Alternatives

section

variable {defs : Definitions} {domain : Value → Prop} {property : Value → Violation → Prop}

mutual

/-- What goes up holds of all violations that a check finds. -/
theorem forall_check (h : GoesUp domain property) (budget : Nat) (s : Schema) (v : Value)
    (hv : domain v) : ∀ x ∈ check defs budget s v, property v x := by
  have hnil : ∀ x ∈ ([] : List Violation), property v x := fun x hx ↦ absurd hx List.not_mem_nil
  cases s with
  | always accepts =>
    rw [check]
    cases accepts with
    | true => exact hnil
    | false => exact h.forall_here
  | reference target source =>
    cases budget with
    | zero =>
      rw [check]
      exact hnil
    | succ budget =>
      rw [check]
      split
      next t ht => exact forall_check h budget t v hv
      next p hp => exact h.forall_here
      next => exact hnil
  | all ks source =>
    rw [check]
    exact forall_checkAll h budget ks v hv
termination_by (sizeOf v, budget, sizeOf s)

theorem forall_checkAll (h : GoesUp domain property) (budget : Nat) (ks : List Keyword) (v : Value)
    (hv : domain v) : ∀ x ∈ checkAll defs budget ks v, property v x := by
  cases ks with
  | nil =>
    rw [checkAll]
    exact fun x hx ↦ absurd hx List.not_mem_nil
  | cons k rest =>
    rw [checkAll, List.forall_mem_append]
    exact ⟨forall_checkKeyword h budget k v hv, forall_checkAll h budget rest v hv⟩
termination_by (sizeOf v, budget, sizeOf ks)

theorem forall_checkKeyword (h : GoesUp domain property) (budget : Nat) (k : Keyword) (v : Value)
    (hv : domain v) : ∀ x ∈ checkKeyword defs budget k v, property v x := by
  have hnil : ∀ x ∈ ([] : List Violation), property v x := fun x hx ↦ absurd hx List.not_mem_nil
  cases k with
  | type names =>
    rw [checkKeyword]
    exact h.forall_ite_here
  | required keys =>
    cases v with
    | map entries =>
      rw [checkKeyword, List.forall_mem_flatMap]
      exact fun key _ ↦ h.forall_ite_here
    | _ => rw [checkKeyword]; exact hnil; all_goals simp
  | properties members =>
    cases v with
    | map entries =>
      rw [checkKeyword]
      exact forall_checkMembers h members entries hv
    | _ => rw [checkKeyword]; exact hnil; all_goals simp
  | others declared rest =>
    cases v with
    | map entries =>
      have hothers := forall_checkOthers h declared rest entries hv entries fun e he ↦ he
      rw [checkKeyword.eq_def]
      dsimp only
      split
      next => exact hnil
      next => exact hnil
      next => exact h.forall_here
      next => exact hothers
    | _ => rw [checkKeyword]; exact hnil; all_goals simp
  | oneOfValues values =>
    rw [checkKeyword]
    exact h.forall_ite_here
  | constant value =>
    rw [checkKeyword]
    exact h.forall_ite_here
  | oneOf branches =>
    rw [checkKeyword]
    refine forall_choose h fun b hb ↦ ?_
    exact forall_checkEach h budget branches v hv b.2 (List.of_mem_zip hb).2
  | allOf branches =>
    rw [checkKeyword]
    intro x hx
    obtain ⟨vs, hvs, hx⟩ := List.mem_flatten.mp hx
    exact forall_checkEach h budget branches v hv vs hvs x hx
  | conditional c yes no =>
    have hfound := forall_check h budget c v hv
    rw [checkKeyword.eq_def]
    dsimp only
    split
    next =>
      cases yes with
      | none => exact hnil
      | some s => exact forall_check h budget s v hv
    next found rest hc =>
      split
      next =>
        rw [List.forall_mem_singleton]
        exact hfound found (by rw [hc]; exact List.mem_cons_self)
      next =>
        cases no with
        | none => exact hnil
        | some s => exact forall_check h budget s v hv
termination_by (sizeOf v, budget, sizeOf k)

theorem forall_checkEach (h : GoesUp domain property) (budget : Nat) (ss : List Schema) (v : Value)
    (hv : domain v) : ∀ vs ∈ checkEach defs budget ss v, ∀ x ∈ vs, property v x := by
  cases ss with
  | nil =>
    rw [checkEach]
    exact fun vs hvs ↦ absurd hvs List.not_mem_nil
  | cons s rest =>
    rw [checkEach, List.forall_mem_cons]
    exact ⟨forall_check h budget s v hv, forall_checkEach h budget rest v hv⟩
termination_by (sizeOf v, budget, sizeOf ss)

theorem forall_checkMembers (h : GoesUp domain property) (members : List (Text × Schema))
    (entries : List (Value × Value)) (hv : domain (.map entries)) :
    ∀ x ∈ checkMembers defs members entries, property (.map entries) x := by
  cases members with
  | nil =>
    rw [checkMembers]
    exact fun x hx ↦ absurd hx List.not_mem_nil
  | cons m rest =>
    obtain ⟨key, s⟩ := m
    rw [checkMembers, List.forall_mem_append]
    refine ⟨?_, forall_checkMembers h rest entries hv⟩
    split
    next w hw =>
      have hlt := sizeOf_lookup_lt hw
      have hmem : (.str key, w) ∈ entries := Value.mem_of_lookup hw
      exact h.forall_underKey hv hmem (forall_check h defs.length s w (h.part hv hmem))
    next => exact fun x hx ↦ absurd hx List.not_mem_nil
termination_by (sizeOf entries, 0, sizeOf members)

/-- The entries that are checked are some of those of the mapping. -/
theorem forall_checkOthers (h : GoesUp domain property) (declared : List Text) (s : Schema)
    (all : List (Value × Value)) (hv : domain (.map all)) (entries : List (Value × Value))
    (hentries : ∀ e ∈ entries, e ∈ all) :
    ∀ x ∈ checkOthers defs declared s entries, property (.map all) x := by
  match entries, hentries with
  | [], _ =>
    rw [checkOthers]
    exact fun x hx ↦ absurd hx List.not_mem_nil
  | (key, w) :: rest, hentries =>
    obtain ⟨hentry, hrest⟩ := List.forall_mem_cons.mp hentries
    rw [checkOthers, List.forall_mem_append]
    refine ⟨?_, forall_checkOthers h declared s all hv rest hrest⟩
    split
    next => exact fun x hx ↦ absurd hx List.not_mem_nil
    next => exact h.forall_underKey hv hentry (forall_check h defs.length s w (h.part hv hentry))
termination_by (sizeOf entries, 0, 0)

end

end

/-! ## Paths in the value -/

/-- Whether the path of a violation leads to a part of a value. -/
def Violation.IsIn (v : Value) (x : Violation) : Prop :=
  ∃ tokens : List Text, x.path = tokens.map .str ∧ (v.at? tokens).isSome = true

/-- A key that is a text leads on from the mapping. -/
theorem goesUp_isIn : GoesUp Value.HasTextKeys fun v x ↦ x.IsIn v where
  root h := ⟨[], h, rfl⟩
  part hv he := ((Value.hasTextKeys_map_iff.mp hv).2 _ he).2
  null hv he hnull _ := by
    obtain ⟨token, htoken, -⟩ := hv.child?_of_mem he
    rw [htoken] at hnull
    cases hnull
  key hv he _ hx := by
    obtain ⟨token, htoken, hchild⟩ := hv.child?_of_mem he
    obtain ⟨tokens, htokens, hpart⟩ := hx
    refine ⟨token :: tokens, ?_, ?_⟩
    · rw [htokens, List.map_cons, htoken]
    · rw [Value.at?, hchild]
      exact hpart

/-- The violations that a check finds are in the value. -/
theorem isIn_check {defs : Definitions} (budget : Nat) (s : Schema) (v : Value)
    (hv : v.HasTextKeys) : ∀ x ∈ check defs budget s v, x.IsIn v :=
  forall_check goesUp_isIn budget s v hv

end EntityGraph.Schema
