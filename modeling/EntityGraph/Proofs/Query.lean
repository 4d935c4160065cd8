import EntityGraph.Notice

/-!
# Answers of queries

A query ends with an answer or with a fault, and leaves notices on the way. No step of a query reads
the notices before it, so the answers compose by themselves: `answer` takes the steps of a query to
the steps of a computation that answers or fails.

Most loaders can fail in one way only, by asking for a text that a number does not have. `Settles`
says this of a computation, together with what it answers: the fault is that one, and it comes up
only where a condition is broken. Where the fault comes up whenever the condition is broken, the
computation `Decides` the condition.
-/

namespace EntityGraph

variable {α β : Type}

/-! ## Computations that may fail -/

/-- A computation of two steps answers exactly when both steps do. -/
theorem bind_eq_ok_iff {x : Except Fault α} {f : α → Except Fault β} {b : β} :
    (x >>= f) = .ok b ↔ ∃ a, x = .ok a ∧ f a = .ok b := by
  cases x with
  | error fault =>
    constructor
    · intro h
      cases h
    · rintro ⟨a, h, -⟩
      cases h
  | ok a =>
    constructor
    · intro h
      exact ⟨a, rfl, h⟩
    · rintro ⟨a', h, hb⟩
      cases h
      exact hb

/-- And it fails exactly when one of them does, if it comes to that one. -/
theorem bind_eq_error_iff {x : Except Fault α} {f : α → Except Fault β} {fault : Fault} :
    (x >>= f) = .error fault ↔ x = .error fault ∨ ∃ a, x = .ok a ∧ f a = .error fault := by
  cases x with
  | error fault' =>
    constructor
    · intro h
      cases h
      exact Or.inl rfl
    · rintro (h | ⟨a, h, -⟩)
      · cases h
        rfl
      · cases h
  | ok a =>
    constructor
    · intro h
      exact Or.inr ⟨a, rfl, h⟩
    · rintro (h | ⟨a', h, hfault⟩)
      · cases h
      · cases h
        exact hfault

@[simp] theorem ok_bind (a : α) (f : α → Except Fault β) : (Except.ok a >>= f) = f a := rfl

namespace Query

/-! ## Answers and notices -/

/-- The answer of a query, or its fault. -/
def answer (q : Query α) : Except Fault α := q.outcome.value

/-- The notices of a query, up to its fault if it meets one. -/
def notices (q : Query α) : List Notice := q.outcome.notices

@[simp] theorem answer_pure (a : α) : answer (pure a) = .ok a := rfl

@[simp] theorem answer_ofExcept (x : Except Fault α) : (ofExcept x).answer = x := rfl

@[simp] theorem answer_lift (l : Logged α) : answer (liftM l : Query α) = .ok l.value := rfl

@[simp] theorem answer_bind (q : Query α) (f : α → Query β) :
    (q >>= f).answer = q.answer >>= fun a ↦ (f a).answer := by
  change (ExceptT.bindCont f q.outcome.value).value = q.outcome.value >>= fun a ↦ (f a).answer
  cases q.outcome.value with
  | error fault => rfl
  | ok a => rfl

@[simp] theorem notices_lift (l : Logged α) : notices (liftM l : Query α) = l.notices :=
  Logged.map_notices _ l

/-- What follows a query that answers leaves its notices after those of the query. -/
theorem notices_bind_of_ok {q : Query α} {a : α} (h : q.answer = .ok a) (f : α → Query β) :
    (q >>= f).notices = q.notices ++ (f a).notices := by
  have hvalue : q.outcome.value = .ok a := h
  change q.outcome.notices ++ (ExceptT.bindCont f q.outcome.value).notices = _
  rw [hvalue]
  rfl

end Query

/-- What follows a query in a visit starts from the same state, and does not start after a fault. -/
theorem Visit.outcome_ofQuery_bind {σ : Type} (q : Query α) (f : α → Visit σ β) (s : σ) :
    (Visit.outcome (Visit.ofQuery q >>= f) s).value =
      match q.answer with
      | .ok a => (Visit.outcome (f a) s).value
      | .error fault => (.error fault, s) := by
  change (StateT.run (ExceptT.bindCont f q.answer) s).value = _
  cases q.answer with
  | error fault => rfl
  | ok a => rfl

/-! ## Properties of answers -/

/-- Whether a computation answers, if it does, only with something that has a property. -/
def Yields (property : α → Prop) (x : Except Fault α) : Prop := ∀ a, x = .ok a → property a

namespace Yields

variable {p : α → Prop} {r : β → Prop} {x : Except Fault α}

theorem ok {a : α} (h : p a) : Yields p (.ok a) := by
  intro a' ha'
  cases ha'
  exact h

theorem error (fault : Fault) : Yields p (.error fault) := by
  intro a ha
  cases ha

theorem bind {f : α → Except Fault β} (h : Yields p x) (hf : ∀ a, p a → Yields r (f a)) :
    Yields r (x >>= f) := by
  intro b hb
  obtain ⟨a, ha, hb⟩ := bind_eq_ok_iff.mp hb
  exact hf a (h a ha) b hb

/-- What the first step answers need not matter. -/
theorem bind_right {f : α → Except Fault β} (hf : ∀ a, Yields r (f a)) : Yields r (x >>= f) :=
  bind (p := fun _ ↦ True) (fun _ _ ↦ trivial) fun a _ ↦ hf a

end Yields

/-- Whether a computation answers, if it does, only with lists whose members have a property. -/
def YieldsAll (property : α → Prop) (x : Except Fault (List α)) : Prop :=
  Yields (fun as ↦ ∀ a ∈ as, property a) x

namespace YieldsAll

variable {p : α → Prop}

theorem error (fault : Fault) : YieldsAll p (.error fault) := Yields.error fault

theorem bind_right {x : Except Fault β} {f : β → Except Fault (List α)}
    (hf : ∀ b, YieldsAll p (f b)) : YieldsAll p (x >>= f) := Yields.bind_right hf

theorem nil : YieldsAll p (.ok []) := .ok fun _ ha ↦ absurd ha List.not_mem_nil

theorem singleton {a : α} (h : p a) : YieldsAll p (.ok [a]) := .ok (List.forall_mem_singleton.mpr h)

/-- What is found one after the other has a property if what each step finds does. -/
theorem append {x y : Except Fault (List α)} (hx : YieldsAll p x) (hy : YieldsAll p y) :
    YieldsAll p (x >>= fun found ↦ y >>= fun others ↦ .ok (found ++ others)) :=
  hx.bind fun _ hfound ↦ hy.bind fun _ hothers ↦ .ok (List.forall_mem_append.mpr ⟨hfound, hothers⟩)

end YieldsAll

/-! ## Settling -/

/-- A computation settles under a condition if it answers with something that has a property, or
fails for want of a text where the condition is broken. -/
def Settles (condition : Prop) (property : α → Prop) : Except Fault α → Prop
  | .ok a => property a
  | .error fault => fault = .numberTooLong ∧ ¬ condition

namespace Settles

variable {condition : Prop} {p : α → Prop} {r : β → Prop} {x : Except Fault α}

theorem mono {q : α → Prop} (h : Settles condition p x) (hpq : ∀ a, p a → q a) :
    Settles condition q x := by
  cases x with
  | error fault => exact h
  | ok a => exact hpq a h

theorem bind {f : α → Except Fault β} (h : Settles condition p x)
    (hf : ∀ a, p a → Settles condition r (f a)) : Settles condition r (x >>= f) := by
  cases x with
  | error fault => exact h
  | ok a => exact hf a h

/-- Asking for a text settles where the condition promises one. -/
theorem requireWritable {isWritable : Bool} (h : condition → isWritable = true) :
    Settles condition (fun _ ↦ True) (Fault.requireWritable isWritable) := by
  rw [Fault.requireWritable]
  by_cases hw : isWritable = true
  · rw [if_pos hw]
    exact trivial
  · rw [if_neg hw]
    exact ⟨rfl, fun hc ↦ hw (h hc)⟩

/-- The text of a value settles where the condition promises one. -/
theorem written {v : Value} (h : condition → v.isWritable = true) :
    Settles condition (fun t ↦ t = v.plain) v.written := by
  rw [Value.written]
  exact (requireWritable h).bind fun _ _ ↦ rfl

/-- A computation that settles under a condition that holds has an answer. -/
theorem exists_answer (h : Settles condition p x) (hc : condition) : ∃ a, x = .ok a ∧ p a := by
  cases x with
  | error fault => exact absurd hc h.2
  | ok a => exact ⟨a, rfl, h⟩

/-- And if the answer is promised to be something, it is. -/
theorem exists_some {x : Except Fault (Option α)}
    (h : Settles condition (fun found ↦ found.isSome = true) x) (hc : condition) :
    ∃ a, x = .ok (some a) := by
  obtain ⟨found, rfl, hsome⟩ := h.exists_answer hc
  obtain ⟨a, rfl⟩ := Option.isSome_iff_exists.mp hsome
  exact ⟨a, rfl⟩

end Settles

/-- Whether a computation answers with a list whose members have a property, or fails for want of a
text. -/
def SettlesAll (property : α → Prop) (x : Except Fault (List α)) : Prop :=
  Settles False (fun as ↦ ∀ a ∈ as, property a) x

namespace SettlesAll

variable {p : α → Prop} {x y : Except Fault (List α)}

theorem nil : SettlesAll p (.ok []) := fun _ ha ↦ absurd ha List.not_mem_nil

theorem singleton {a : α} (h : p a) : SettlesAll p (.ok [a]) := List.forall_mem_singleton.mpr h

theorem append (hx : SettlesAll p x) (hy : SettlesAll p y) :
    SettlesAll p (x >>= fun found ↦ y >>= fun others ↦ .ok (found ++ others)) :=
  Settles.bind hx fun _ hfound ↦ Settles.bind hy fun _ hothers ↦
    List.forall_mem_append.mpr ⟨hfound, hothers⟩

theorem yieldsAll (h : SettlesAll p x) : YieldsAll p x := by
  rintro as rfl
  exact h

end SettlesAll

/-! ## Deciding -/

/-- A computation decides a condition if it answers exactly where the condition holds, and else
fails for want of a text. -/
def Decides (condition : Prop) (property : α → Prop) (x : Except Fault α) : Prop :=
  Settles condition (fun a ↦ condition ∧ property a) x

namespace Decides

variable {condition further : Prop} {p : α → Prop} {r : β → Prop} {x : Except Fault α}

theorem ok {a : α} (h : p a) : Decides True p (.ok a) := ⟨trivial, h⟩

/-- Only the meaning of the condition counts. -/
theorem congr (h : Decides condition p x) (hiff : condition ↔ further) : Decides further p x := by
  rw [← propext hiff]
  exact h

/-- Of two steps the second is not reached where the condition of the first is broken. -/
theorem bind {f : α → Except Fault β} (h : Decides condition p x)
    (hf : ∀ a, p a → Decides further r (f a)) : Decides (condition ∧ further) r (x >>= f) := by
  cases x with
  | error fault => exact ⟨h.1, fun hc ↦ h.2 hc.1⟩
  | ok a =>
    rw [ok_bind]
    cases hb : f a with
    | error fault =>
      have hsecond := hf a h.2
      rw [hb] at hsecond
      exact ⟨hsecond.1, fun hc ↦ hsecond.2 hc.2⟩
    | ok b =>
      have hsecond := hf a h.2
      rw [hb] at hsecond
      exact ⟨⟨h.1, hsecond.1⟩, hsecond.2⟩

/-- What is done with an answer that always comes does not add to the condition. -/
theorem bind_ok {f : α → β} (h : Decides condition p x) (hf : ∀ a, p a → r (f a)) :
    Decides condition r (x >>= fun a ↦ .ok (f a)) :=
  (h.bind fun a ha ↦ .ok (hf a ha)).congr (and_iff_left trivial)

theorem requireWritable (isWritable : Bool) :
    Decides (isWritable = true) (fun _ ↦ True) (Fault.requireWritable isWritable) := by
  cases isWritable with
  | true => exact ⟨rfl, trivial⟩
  | false => exact ⟨rfl, Bool.false_ne_true⟩

/-- A value has a text exactly if it is writable. -/
theorem written (v : Value) : Decides (v.isWritable = true) (fun t ↦ t = v.plain) v.written := by
  rw [Value.written]
  exact (requireWritable _).bind_ok fun _ _ ↦ rfl

/-- What decides a condition settles under every condition that implies it. -/
theorem settles (h : Decides condition p x) (hc : further → condition) : Settles further p x := by
  cases x with
  | error fault => exact ⟨h.1, fun hf ↦ h.2 (hc hf)⟩
  | ok a => exact h.2

/-- Where the condition is broken there is the fault. -/
theorem eq_error (h : Decides condition p x) (hc : ¬ condition) : x = .error .numberTooLong := by
  cases x with
  | error fault => rw [h.1]
  | ok a => exact absurd h.1 hc

end Decides

end EntityGraph
