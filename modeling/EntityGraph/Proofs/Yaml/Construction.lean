import EntityGraph.Yaml.Document

/-!
# Failures of values

Why a node tree has no value. A step towards the value fails of its own accord only where the tree
is flawed: a collection under a tag that does not fit it, something that cannot be merged, a key
that is none. Everything else comes from a part of the tree that is read as a scalar and whose text
gives no value of the kind that the tag of the part asks for.

Drafts of all sorts are made of the same steps, so that the cause of a failure is fixed first, and a
draft is shown to fail only for that cause or with a flaw.
-/

namespace EntityGraph.Yaml

namespace Node

/-! ## Misread parts -/

/-- A node is part of another: itself, or part of an item, a key or a value in it. -/
inductive IsPart (m : Node) : Node → Prop where
  | self : IsPart m m
  | item {tag : Tag} {items : List Node} {place : Place} {n : Node} :
    n ∈ items → IsPart m n → IsPart m (.seq tag items place)
  | key {tag : Tag} {entries : List (Node × Node)} {place : Place} {e : Node × Node} :
    e ∈ entries → IsPart m e.1 → IsPart m (.map tag entries place)
  | value {tag : Tag} {entries : List (Node × Node)} {place : Place} {e : Node × Node} :
    e ∈ entries → IsPart m e.2 → IsPart m (.map tag entries place)

/-- A node is read as a scalar, and its text gives no value under its tag. The text of a mapping is
that under its default key, and no mapping is read as a moment. -/
inductive Misread (label : Nat) : Node → ScalarFault → Prop where
  | scalar {tag : Tag} {text : Text} {place : Place} {fault : ScalarFault} :
    ScalarValue.ofText tag (label + place.index) text = .error (.scalar fault) →
      Misread label (.scalar tag text place) fault
  | mapping {tag : Tag} {entries : List (Node × Node)} {place : Place} {text : Text}
    {keys : List Place} {fault : ScalarFault} :
    defaultText? entries = some (text, keys) → tag ≠ .timestamp →
      ScalarValue.ofText tag (label + place.index) text = .error (.scalar fault) →
      Misread label (.map tag entries place) fault
  | moment {entries : List (Node × Node)} {place : Place} {text : Text} {keys : List Place} :
    defaultText? entries = some (text, keys) →
      Misread label (.map .timestamp entries place) .notText

/-- Whatever goes wrong when parts of a node are read as scalars has a cause. -/
def Explains (label : Nat) (cause : ScalarFault → Prop) (n : Node) : Prop :=
  ∀ m fault, IsPart m n → Misread label m fault → cause fault

namespace Explains

variable {label : Nat} {cause : ScalarFault → Prop} {tag : Tag} {place : Place}

theorem item {items : List Node} (h : Explains label cause (.seq tag items place)) :
    ∀ n ∈ items, Explains label cause n :=
  fun _ hn m fault hm hmisread ↦ h m fault (.item hn hm) hmisread

theorem key {entries : List (Node × Node)} (h : Explains label cause (.map tag entries place)) :
    ∀ e ∈ entries, Explains label cause e.1 :=
  fun _ he m fault hm hmisread ↦ h m fault (.key he hm) hmisread

theorem value {entries : List (Node × Node)} (h : Explains label cause (.map tag entries place)) :
    ∀ e ∈ entries, Explains label cause e.2 :=
  fun _ he m fault hm hmisread ↦ h m fault (.value he hm) hmisread

end Explains

end Node

/-! ## Steps that are due -/

/-- A failure is due to a cause if it is a flaw or a fault of a scalar with that cause. -/
def Failure.IsDue (cause : ScalarFault → Prop) (f : Failure) : Prop :=
  f.isFlaw = true ∨ ∃ fault, f = .scalar fault ∧ cause fault

/-- A step is due to a cause if the failure that it may be is. -/
def Step.IsDue (cause : ScalarFault → Prop) (s : Step) : Prop :=
  ∀ f, s = .fails f → f.IsDue cause

theorem Step.isDue_of_isFlaw {cause : ScalarFault → Prop} {f : Failure} (h : f.isFlaw = true) :
    (Step.fails f).IsDue cause := by
  intro f' hf
  cases hf
  exact .inl h

namespace Draft

variable {α β : Type} {cause : ScalarFault → Prop}

/-- A draft is due to a cause if all its steps are. -/
def IsDue (cause : ScalarFault → Prop) (d : Draft α) : Prop := ∀ s ∈ d.steps, s.2.IsDue cause

theorem isDue_failed {f : Failure} (h : f.IsDue cause) : (failed f).IsDue cause := by
  intro s hs
  rw [List.mem_singleton.mp hs]
  intro f' hf
  cases hf
  exact h

theorem isDue_unfilled : unfilled.IsDue cause := by
  intro s hs
  rw [List.mem_singleton.mp hs]
  exact Step.isDue_of_isFlaw rfl

theorem IsDue.inner {d : Draft α} (h : d.IsDue cause) : ∀ s ∈ d.inner, s.2.IsDue cause := by
  intro s hs
  obtain ⟨s', hs', rfl⟩ := List.mem_map.mp hs
  exact h s' hs'

theorem IsDue.map {d : Draft α} (h : d.IsDue cause) (f : α → β) : (d.map f).IsDue cause := h

/-- A step that does not fail may be put before a draft. -/
theorem IsDue.cons {value : α} {steps : List (Nat × Step)} (h : IsDue cause ⟨value, steps⟩)
    {depth : Nat} {s : Step} (hs : s.IsDue cause) : IsDue cause ⟨value, (depth, s) :: steps⟩ :=
  List.forall_mem_cons.mpr ⟨hs, h⟩

theorem isDue_ofItems {items : List (Draft Value)} (h : ∀ d ∈ items, d.IsDue cause) :
    (ofItems items).IsDue cause := by
  intro s hs
  obtain ⟨d, hd, hs⟩ := List.mem_flatMap.mp hs
  exact (h d hd).inner s hs

/-- The entries of a draft are due if their keys and values are. -/
def AreDue (cause : ScalarFault → Prop) (entries : List (Draft Value × Draft Value)) : Prop :=
  ∀ e ∈ entries, e.1.IsDue cause ∧ e.2.IsDue cause

theorem AreDue.append {entries others : List (Draft Value × Draft Value)}
    (h : AreDue cause entries) (hothers : AreDue cause others) :
    AreDue cause (entries ++ others) :=
  List.forall_mem_append.mpr ⟨h, hothers⟩

theorem isDue_entrySteps {e : Draft Value × Draft Value} (hkey : e.1.IsDue cause)
    (hvalue : e.2.IsDue cause) : ∀ s ∈ entrySteps e, s.2.IsDue cause := by
  intro s hs
  rw [entrySteps, List.mem_append, List.mem_append] at hs
  obtain (hs | hs) | hs := hs
  · exact hkey.inner s hs
  · split at hs
    next => cases hs
    next =>
      rw [List.mem_singleton.mp hs]
      exact Step.isDue_of_isFlaw rfl
  · exact hvalue.inner s hs

theorem isDue_ofEntries {first : List Step} {entries : List (Draft Value × Draft Value)}
    (hfirst : ∀ s ∈ first, s.IsDue cause) (h : AreDue cause entries) :
    (ofEntries first entries).IsDue cause := by
  intro s hs
  obtain hs | hs := List.mem_append.mp hs
  · obtain ⟨s', hs', rfl⟩ := List.mem_map.mp hs
    exact hfirst s' hs'
  · obtain ⟨e, he, hs⟩ := List.mem_flatMap.mp hs
    exact isDue_entrySteps (h e he).1 (h e he).2 s hs

end Draft

/-! ## Scalars -/

/-- A text under a tag gives no value by a flaw or by a fault of its own. -/
theorem ScalarValue.isDue_of_ofText {tag : Tag} {label : Nat} {text : Text} {f : Failure}
    (h : ofText tag label text = .error f) :
    f.IsDue fun fault ↦ ofText tag label text = .error (.scalar fault) := by
  have hfault {α : Type} {x : Except ScalarFault α} (hx : x.mapError Failure.scalar = .error f) :
      ∃ fault, f = .scalar fault := by
    cases x with
    | error fault =>
      cases hx
      exact ⟨fault, rfl⟩
    | ok a => cases hx
  have hscalar (hx : ∃ fault, f = .scalar fault) :
      f.IsDue fun fault ↦ ofText tag label text = .error (.scalar fault) := by
    obtain ⟨fault, rfl⟩ := hx
    exact .inr ⟨fault, rfl, h⟩
  cases tag with
  | bool => exact hscalar (hfault h)
  | int => exact hscalar (hfault h)
  | float => exact hscalar (hfault h)
  | timestamp => exact hscalar (hfault h)
  | binary =>
    rw [ofText] at h
    split at h
    next => cases h
    next => cases h; exact .inl rfl
  | null => cases h
  | str => cases h
  | _ => cases h; exact .inl rfl

theorem Failure.IsDue.mono {cause cause' : ScalarFault → Prop} {f : Failure} (h : f.IsDue cause)
    (hcause : ∀ fault, cause fault → cause' fault) : f.IsDue cause' := by
  obtain hflaw | ⟨fault, rfl, hfault⟩ := h
  · exact .inl hflaw
  · exact .inr ⟨fault, rfl, hcause fault hfault⟩

theorem Draft.isDue_ofScalar {cause : ScalarFault → Prop} {tag : Tag} {label : Nat} {text : Text}
    (h : ∀ fault, ScalarValue.ofText tag label text = .error (.scalar fault) → cause fault) :
    (Draft.ofScalar (ScalarValue.ofText tag label text)).IsDue cause := by
  cases hread : ScalarValue.ofText tag label text with
  | ok v => exact fun s hs ↦ absurd hs List.not_mem_nil
  | error f => exact isDue_failed ((ScalarValue.isDue_of_ofText hread).mono h)

namespace Node

section

variable {label : Nat} {cause : ScalarFault → Prop}

/-- A node that is read as a scalar is read under its own tag, or as a text. -/
theorem isDue_draftAsScalar {n : Node} {tag : Tag} (h : Explains label cause n)
    (htag : tag = n.tag ∨ tag = .str) : (draftAsScalar label tag n).IsDue cause := by
  have hstep {keys : List Place} : (Step.readsDefault n.place keys).IsDue cause := by
    intro f hf
    cases hf
  rw [draftAsScalar]
  split
  next => exact Draft.isDue_failed (.inl rfl)
  next text keys htext =>
    refine Draft.IsDue.cons ?_ hstep
    split
    next tag' entries place =>
      apply Draft.isDue_failed
      obtain htag | htag := htag
      · cases (htag : Tag.timestamp = tag')
        exact .inr ⟨.notText, rfl, h _ _ .self (.moment htext)⟩
      · cases htag
    next hmoment =>
      apply Draft.isDue_ofScalar
      intro fault hfault
      obtain rfl | rfl := htag
      · cases n with
        | scalar tag text' place =>
          cases htext
          exact h _ _ .self (.scalar hfault)
        | seq tag items place => cases htext
        | map tag entries place =>
          apply h _ _ .self
          refine .mapping htext ?_ hfault
          rintro rfl
          exact hmoment _ _ _ rfl rfl
      · cases hfault

theorem isDue_draftMisfit {n : Node} (h : Explains label cause n) :
    (draftMisfit label n.tag n).IsDue cause := by
  have hscalar := isDue_draftAsScalar h (.inl rfl)
  unfold draftMisfit
  split
  next => exact Draft.isDue_unfilled
  next => exact Draft.isDue_unfilled
  next => exact Draft.isDue_unfilled
  next => exact Draft.isDue_unfilled
  next => exact Draft.isDue_unfilled
  next => exact Draft.isDue_failed (.inl rfl)
  next => exact Draft.isDue_failed (.inl rfl)
  next => exact Draft.isDue_failed (.inl rfl)
  next =>
    refine Draft.IsDue.cons (isDue_draftAsScalar h (.inr rfl)) ?_
    intro f hf
    cases hf
  next => exact hscalar

/-! ## Merging -/

mutual

/-- Merging fails only where something cannot be merged. -/
theorem isDue_mergeSteps : ∀ entries : List (Node × Node), ∀ s ∈ mergeSteps entries,
    s.IsDue cause
  | [], s, hs => by cases hs
  | (k, v) :: rest, s, hs => by
    rw [mergeSteps, List.mem_append] at hs
    obtain hs | hs := hs
    · split at hs
      next => exact isDue_mergeStepsOf v s hs
      next =>
        split at hs
        next =>
          rw [List.mem_singleton.mp hs]
          intro f hf
          cases hf
        next => cases hs
    · exact isDue_mergeSteps rest s hs

theorem isDue_mergeStepsOf : ∀ n : Node, ∀ s ∈ mergeStepsOf n, s.IsDue cause
  | .scalar tag text place, s, hs => by
    rw [mergeStepsOf, List.mem_singleton] at hs
    rw [hs]
    exact Step.isDue_of_isFlaw rfl
  | .seq tag items place, s, hs => isDue_mergeStepsOfItems items s hs
  | .map tag entries place, s, hs => by
    rw [mergeStepsOf, List.mem_append] at hs
    obtain hs | hs := hs
    · exact isDue_mergeSteps entries s hs
    · rw [List.mem_singleton.mp hs]
      intro f hf
      cases hf

theorem isDue_mergeStepsOfItems : ∀ items : List Node, ∀ s ∈ mergeStepsOfItems items,
    s.IsDue cause
  | [], s, hs => by cases hs
  | .map tag entries place :: rest, s, hs => by
    rw [mergeStepsOfItems, List.mem_append, List.mem_cons] at hs
    obtain hs | rfl | hs := hs
    · exact isDue_mergeSteps entries s hs
    · intro f hf
      cases hf
    · exact isDue_mergeStepsOfItems rest s hs
  | .scalar tag text place :: rest, s, hs => by
    rw [mergeStepsOfItems, List.mem_singleton] at hs
    · rw [hs]
      exact Step.isDue_of_isFlaw rfl
    · rintro _ _ _ ⟨⟩
  | .seq tag items place :: rest, s, hs => by
    rw [mergeStepsOfItems, List.mem_singleton] at hs
    · rw [hs]
      exact Step.isDue_of_isFlaw rfl
    · rintro _ _ _ ⟨⟩

end

/-! ## Drafts -/

mutual

/-- The draft of a node fails only with a flaw or where a part of the node is misread, one case for
every kind of node and every tag with a rule of its own. -/
theorem isDue_draft : ∀ n : Node, Explains label cause n → (draft label n).IsDue cause
  | .scalar tag text place, h => by
    have hscalar : (Draft.ofScalar (ScalarValue.ofText tag (label + place.index) text)).IsDue
        cause :=
      Draft.isDue_ofScalar fun fault hfault ↦ h _ _ .self (.scalar hfault)
    unfold draft
    -- A scalar with the tag of a collection is not read, nor is one that stands for a default.
    split
    next => exact Draft.isDue_unfilled
    next => exact Draft.isDue_unfilled
    next => exact Draft.isDue_unfilled
    next => exact Draft.isDue_unfilled
    next => exact Draft.isDue_unfilled
    next =>
      intro s hs
      rw [List.mem_singleton.mp hs]
      intro f hf
      cases hf
    next => exact hscalar
  | .seq tag items place, h => by
    unfold draft
    split
    next => exact (Draft.isDue_ofItems (isDue_draftItems items h.item)).map _
    next => exact (isDue_draftPairs items h.item).map _
    next => exact (isDue_draftPairs items h.item).map _
    next => exact isDue_draftMisfit h
  | .map tag entries place, h => by
    have hfirst : ∀ s ∈ mergeSteps entries ++ [.merges place], s.IsDue cause := by
      intro s hs
      obtain hs | hs := List.mem_append.mp hs
      · exact isDue_mergeSteps entries s hs
      · rw [List.mem_singleton.mp hs]
        intro f hf
        cases hf
    have hentries := (areDue_mergedIn entries h.key h.value).append
      (areDue_draftEntries entries h.key h.value)
    have hwhole := Draft.isDue_ofEntries hfirst hentries
    unfold draft
    dsimp only
    split
    next => exact hwhole.map _
    next => exact hwhole.map _
    next => exact isDue_draftMisfit h

theorem isDue_draftItems : ∀ items : List Node, (∀ n ∈ items, Explains label cause n) →
    ∀ d ∈ draftItems label items, d.IsDue cause
  | [], _, d, hd => by cases hd
  | n :: rest, h, d, hd => by
    obtain ⟨hn, hrest⟩ := List.forall_mem_cons.mp h
    obtain rfl | hd := List.mem_cons.mp hd
    · exact isDue_draft n hn
    · exact isDue_draftItems rest hrest d hd

theorem isDue_draftPairs : ∀ items : List Node, (∀ n ∈ items, Explains label cause n) →
    (draftPairs label items).IsDue cause
  | [], _ => by
    intro s hs
    cases hs
  | .map tag entries place :: rest, h => by
    obtain ⟨hn, hrest⟩ := List.forall_mem_cons.mp h
    have hmore := isDue_draftPairs rest hrest
    -- Whether the entries are taken as they are or as they are merged, they are due.
    have hentries (isPlain : Bool) : Draft.AreDue cause (if isPlain then draftParts label entries
        else mergedIn label entries ++ draftEntries label entries) := by
      split
      next => exact areDue_draftParts entries hn.key hn.value
      next =>
        exact (areDue_mergedIn entries hn.key hn.value).append
          (areDue_draftEntries entries hn.key hn.value)
    have hknown (isPlain : Bool) : ∀ s ∈ if isPlain then [] else [(1, Step.needsMerged place)],
        s.2.IsDue cause := by
      intro s hs
      split at hs
      next => cases hs
      next =>
        rw [List.mem_singleton.mp hs]
        intro f hf
        cases hf
    unfold draftPairs
    dsimp only
    split
    next key value hentry =>
      have hmem := List.mem_singleton_self (key, value)
      rw [← hentry] at hmem
      obtain ⟨hkey, hvalue⟩ := hentries _ _ hmem
      intro s hs
      simp only [List.mem_append] at hs
      obtain ((hs | hs) | hs) | hs := hs
      · exact hknown _ s hs
      · exact hkey.inner s hs
      · exact hvalue.inner s hs
      · exact hmore s hs
    next => exact Draft.isDue_unfilled
  | .scalar tag text place :: rest, h => Draft.isDue_unfilled
  | .seq tag items place :: rest, h => Draft.isDue_unfilled

theorem areDue_draftParts : ∀ entries : List (Node × Node),
    (∀ e ∈ entries, Explains label cause e.1) → (∀ e ∈ entries, Explains label cause e.2) →
      Draft.AreDue cause (draftParts label entries)
  | [], _, _ => by
    intro e he
    cases he
  | (k, v) :: rest, hkeys, hvalues => by
    obtain ⟨hk, hkeys⟩ := List.forall_mem_cons.mp hkeys
    obtain ⟨hv, hvalues⟩ := List.forall_mem_cons.mp hvalues
    exact List.forall_mem_cons.mpr ⟨⟨isDue_draft k hk, isDue_draft v hv⟩,
      areDue_draftParts rest hkeys hvalues⟩

theorem areDue_draftEntries : ∀ entries : List (Node × Node),
    (∀ e ∈ entries, Explains label cause e.1) → (∀ e ∈ entries, Explains label cause e.2) →
      Draft.AreDue cause (draftEntries label entries)
  | [], _, _ => by
    intro e he
    cases he
  | (k, v) :: rest, hkeys, hvalues => by
    obtain ⟨hk, hkeys⟩ := List.forall_mem_cons.mp hkeys
    obtain ⟨hv, hvalues⟩ := List.forall_mem_cons.mp hvalues
    have hrest := areDue_draftEntries rest hkeys hvalues
    unfold draftEntries
    dsimp only
    split
    next => exact hrest
    next =>
      refine List.forall_mem_cons.mpr ⟨⟨?_, isDue_draft v hv⟩, hrest⟩
      dsimp only
      split
      next => exact isDue_draftAsScalar hk (.inr rfl)
      next => exact isDue_draft k hk

theorem areDue_mergedIn : ∀ entries : List (Node × Node),
    (∀ e ∈ entries, Explains label cause e.1) → (∀ e ∈ entries, Explains label cause e.2) →
      Draft.AreDue cause (mergedIn label entries)
  | [], _, _ => by
    intro e he
    cases he
  | (k, v) :: rest, hkeys, hvalues => by
    obtain ⟨hk, hkeys⟩ := List.forall_mem_cons.mp hkeys
    obtain ⟨hv, hvalues⟩ := List.forall_mem_cons.mp hvalues
    unfold mergedIn
    refine Draft.AreDue.append ?_ (areDue_mergedIn rest hkeys hvalues)
    split
    next => exact areDue_mergedFrom v hv
    next =>
      intro e he
      cases he

theorem areDue_mergedFrom : ∀ n : Node, Explains label cause n →
    Draft.AreDue cause (mergedFrom label n)
  | .scalar tag text place, _ => by
    intro e he
    cases he
  | .seq tag items place, h => areDue_mergedItems items h.item
  | .map tag entries place, h =>
    (areDue_mergedIn entries h.key h.value).append (areDue_draftEntries entries h.key h.value)

theorem areDue_mergedItems : ∀ items : List Node, (∀ n ∈ items, Explains label cause n) →
    Draft.AreDue cause (mergedItems label items)
  | [], _ => by
    intro e he
    cases he
  | .map tag entries place :: rest, h => by
    obtain ⟨hn, hrest⟩ := List.forall_mem_cons.mp h
    have hentries := (areDue_mergedIn entries hn.key hn.value).append
      (areDue_draftEntries entries hn.key hn.value)
    exact (areDue_mergedItems rest hrest).append hentries
  | .scalar tag text place :: rest, _ => by
    intro e he
    cases he
  | .seq tag items place :: rest, _ => by
    intro e he
    cases he

end

end

end Node

/-! ## Values -/

theorem Progress.isDue_of_after {p : Progress} {s : Step} {f : Failure}
    {cause : ScalarFault → Prop} (hs : s.IsDue cause) (h : p.after s = .error f) :
    f.IsDue cause := by
  have hrequire {p : Progress} {condition : Bool} (h : p.require condition = .error f) :
      f.IsDue cause := by
    rw [require] at h
    split at h
    next => cases h
    next => cases h; exact .inl rfl
  cases s with
  | fails f' =>
    cases h
    exact hs f rfl
  | makesText key => cases h
  | merges mapping => cases h
  | needsText key => exact hrequire h
  | needsMerged mapping => exact hrequire h
  | readsDefault mapping keys =>
    rw [after] at h
    split at h
    next => cases h
    next => exact hrequire h

/-- Steps that are due fail only for their cause, whatever was done before. -/
theorem Progress.isDue_of_afterAll {p : Progress} {steps : List Step} {f : Failure}
    {cause : ScalarFault → Prop} (hsteps : ∀ s ∈ steps, s.IsDue cause)
    (h : p.afterAll steps = .error f) : f.IsDue cause := by
  induction steps generalizing p with
  | nil => cases h
  | cons s steps ih =>
    obtain ⟨hs, hrest⟩ := List.forall_mem_cons.mp hsteps
    rw [afterAll, List.foldlM_cons] at h
    cases hafter : p.after s with
    | error f' =>
      rw [hafter] at h
      cases h
      exact isDue_of_after hs hafter
    | ok q =>
      rw [hafter] at h
      exact ih hrest h

theorem Draft.isDue_of_outcome {α : Type} {d : Draft α} {f : Failure}
    {cause : ScalarFault → Prop} (hd : d.IsDue cause) (h : d.outcome = .error f) :
    f.IsDue cause := by
  have hordered : ∀ s ∈ d.ordered, s.IsDue cause := by
    intro s hs
    obtain ⟨step, hstep, rfl⟩ := List.mem_map.mp hs
    exact hd step (List.mem_mergeSort.mp hstep)
  rw [outcome] at h
  cases hafter : Progress.afterAll {} d.ordered with
  | error f' =>
    rw [hafter] at h
    cases h
    exact Progress.isDue_of_afterAll hordered hafter
  | ok q =>
    rw [hafter] at h
    cases h

/-- A node has no value by a flaw, or because a part of it is misread. -/
theorem Node.isDue_of_value? {label : Nat} {n : Node} {f : Failure}
    (h : n.value? label = .error f) :
    f.IsDue fun fault ↦ ∃ m, IsPart m n ∧ Misread label m fault :=
  Draft.isDue_of_outcome (isDue_draft n fun m _ hm hmisread ↦ ⟨m, hm, hmisread⟩) h

end EntityGraph.Yaml
