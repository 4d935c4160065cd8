import EntityGraph.Proofs.Model.Loading

/-!
# Loading any document

Loading ends on every document, valid or not: a malformed node is dropped, and the one fault that a
loader can meet is that of a setting whose name has no text. Together with what is known of valid
nodes this says when a node is dropped: only if it is not valid, with the exception of the entities
that the schema accepts and the loader refuses.
-/

namespace EntityGraph

open Schema

variable {condition : Prop}

/-- A computation that settles, and settles with a result where an input is good, settles so that
an empty result tells of a bad input. -/
theorem Settles.not_of_eq_none {α : Type} {good : Prop} {x : Except Fault (Option α)}
    (h : Settles condition (fun _ ↦ True) x)
    (hgood : good → Settles condition (fun found ↦ found.isSome = true) x) :
    Settles condition (fun found ↦ found = none → ¬ good) x := by
  cases x with
  | error fault => exact h
  | ok found =>
    rintro rfl hg
    cases hgood hg

variable {v : Value}

theorem settles_load_field (hkeys : condition → v.keysWritable = true) :
    Settles condition (fun found ↦ found = none → ¬ IsValid "field" v) (Field.load v).answer := by
  refine Settles.not_of_eq_none ?_ fun h ↦ settles_field h hkeys
  rw [Field.load]
  split
  next => exact trivial
  next =>
    rw [Query.answer_bind, Query.answer_lift, ok_bind]
    split
    next => exact trivial
    next =>
      split
      next =>
        rw [Query.answer_bind]
        exact (settles_remarks hkeys).bind fun _ _ ↦ trivial
      next => exact trivial

theorem settles_load_enumItem (hkeys : condition → v.keysWritable = true) :
    Settles condition (fun found ↦ found = none → ¬ IsValid "enumItem" v)
      (EnumItem.load v).answer := by
  refine Settles.not_of_eq_none ?_ fun h ↦ settles_enumItem h hkeys
  rw [EnumItem.load]
  split
  next => exact trivial
  next =>
    rw [Query.answer_bind]
    exact (settles_remarks hkeys).bind fun _ _ ↦ trivial

/-- The children under a key settle if each value whose keys have texts does. -/
theorem settles_loadChildren_field {α : Type} (kind : NodeKind) {load : Value → Query (Option α)}
    {p : Value → Option α → Prop} (hkeys : condition → v.keysWritable = true) (key : Text)
    (h : ∀ w, (condition → w.keysWritable = true) → Settles condition (p w) (load w).answer) :
    Settles condition (fun _ ↦ True) (loadChildren kind load (v.field key)).answer := by
  refine settles_loadChildren kind fun entries hentries e he ↦ (h e.2 fun hc ↦ ?_).mono
    fun _ _ ↦ trivial
  have hfield := Value.keysWritable_field (hkeys hc) key
  rw [hentries] at hfield
  exact (Value.entryKeysWritable_iff.mp hfield e he).2

theorem settles_load_enumeration (hkeys : condition → v.keysWritable = true) :
    Settles condition (fun found ↦ found = none → ¬ IsValid "enum" v)
      (Enumeration.load v).answer := by
  refine Settles.not_of_eq_none ?_ fun h ↦ settles_enumeration h hkeys
  have hitems := settles_loadChildren_field .enumItem hkeys "enumMap"
    fun _ hw ↦ settles_load_enumItem hw
  rw [Enumeration.load]
  split
  next => exact trivial
  next =>
    rw [Query.answer_bind]
    refine hitems.bind fun _ _ ↦ ?_
    rw [Query.answer_bind]
    exact (settles_remarks hkeys).bind fun _ _ ↦ trivial

theorem settles_loadMethod : Settles condition (fun _ ↦ True) (Entity.loadMethod v).answer := by
  rw [Entity.loadMethod]
  split
  next => exact trivial
  next =>
    split
    next => exact trivial
    next => exact trivial

/-- An entity is dropped only if it is not valid, or if its kind or its method is written with a
point. -/
theorem settles_load_entity (hkeys : condition → v.keysWritable = true) :
    Settles condition (fun found ↦ found = none → ¬ (IsValid "entity" v ∧ isFloatWired v = false))
      (Entity.load v).answer := by
  refine Settles.not_of_eq_none ?_ fun ⟨h, hwhole⟩ ↦
    (settles_entity h hkeys).mono fun found hfound ↦ by rw [hfound, hwhole]; rfl
  have hfields (kind : NodeKind) (key : Text) :=
    settles_loadChildren_field kind hkeys key fun _ hw ↦ settles_load_field hw
  rw [Entity.load]
  split
  next => exact trivial
  next =>
    split
    next =>
      split
      next => exact trivial
      next =>
        rw [Query.answer_bind]
        refine settles_loadMethod.bind fun found _ ↦ ?_
        split
        next => exact trivial
        next =>
          rw [Query.answer_bind]
          refine (hfields _ _).bind fun _ _ ↦ ?_
          rw [Query.answer_bind]
          refine (hfields _ _).bind fun _ _ ↦ ?_
          rw [Query.answer_bind]
          exact (settles_remarks hkeys).bind fun _ _ ↦ trivial
    next => exact trivial

theorem settles_load_module (hkeys : condition → v.keysWritable = true) :
    Settles condition (fun found ↦ found = none → ¬ IsValid "module" v)
      (Module.load v).answer := by
  refine Settles.not_of_eq_none ?_ fun h ↦ settles_module h hkeys
  have hentities := settles_loadChildren_field .entity hkeys "entities"
    fun _ hw ↦ settles_load_entity hw
  have henums := settles_loadChildren_field .enumeration hkeys "enums"
    fun _ hw ↦ settles_load_enumeration hw
  rw [Module.load]
  split
  next => exact trivial
  next =>
    rw [Query.answer_bind]
    refine hentities.bind fun _ _ ↦ ?_
    split
    next => exact trivial
    next =>
      rw [Query.answer_bind]
      exact henums.bind fun _ _ ↦ trivial

theorem settles_load_project (hkeys : condition → v.keysWritable = true) :
    Settles condition (fun found ↦ found = none → violations projectSchema v ≠ [])
      (Project.load v).answer := by
  refine Settles.not_of_eq_none ?_ fun h ↦ settles_project h hkeys
  have hmodules := settles_loadChildren_field .moduleNode hkeys "modules"
    fun _ hw ↦ settles_load_module hw
  rw [Project.load]
  split
  next => exact trivial
  next =>
    rw [Query.answer_bind]
    exact hmodules.bind fun _ _ ↦ trivial

end EntityGraph
