import EntityGraph.Proofs.Source.Positions

/-!
# Positions of the parts of a document

Every part of a document that was constructed from a plain node was constructed from a node of its
own, and the source map has the position of that node under the pointer of the part. A node whose
keys are all different is known to its source map under no other pointers. A repeated key may leave
some behind: the nodes below its first value stay known where the last one has no node to replace
them.

A node inside a plain node has a value whenever the whole has one. Of the steps towards the value of
a plain node none helps another, so if they are all taken, each can be taken by itself.
-/

namespace EntityGraph

namespace Yaml

/-! ## Steps by themselves -/

/-- Whether a step is of a kind that there is towards the value of a plain node. -/
def Step.isPlain : Step → Bool
  | .fails _ | .merges _ | .needsText _ => true
  | _ => false

/-- No step of these kinds lets another be taken: if all of them are taken while nothing is a text,
each is sure. -/
theorem Progress.isSure_of_afterAll {steps : List Step} (hplain : ∀ s ∈ steps, s.isPlain = true)
    {p q : Progress} (hp : p.texts = []) (h : p.afterAll steps = .ok q) :
    ∀ s ∈ steps, s.isSure = true := by
  induction steps generalizing p with
  | nil => exact fun s hs ↦ absurd hs List.not_mem_nil
  | cons s steps ih =>
    obtain ⟨hs, hrest⟩ := List.forall_mem_cons.mp hplain
    rw [afterAll, List.foldlM_cons] at h
    rw [List.forall_mem_cons]
    cases s with
    | fails f => cases h
    | merges mapping =>
      have hp' : ({ p with merged := mapping :: p.merged } : Progress).texts = [] := hp
      exact ⟨rfl, ih hrest hp' h⟩
    | needsText key =>
      rw [after, hp] at h
      cases h
    | _ => cases hs

theorem Draft.forall_mem_inner {α : Type} {d : Draft α} (P : Step → Bool) :
    (∀ s ∈ d.inner, P s.2 = true) ↔ ∀ s ∈ d.steps, P s.2 = true := by
  rw [inner, List.forall_mem_map]

/-- A draft of plain steps has an outcome exactly if none of them fails. -/
theorem Draft.outcome_eq_ok_iff {α : Type} {d : Draft α} {a : α}
    (hplain : ∀ s ∈ d.steps, s.2.isPlain = true) :
    d.outcome = .ok a ↔ (∀ s ∈ d.steps, s.2.isSure = true) ∧ a = d.value := by
  constructor
  · intro h
    refine ⟨fun s hs ↦ ?_, eq_value_of_outcome h⟩
    have hordered : ∀ s ∈ d.ordered, s.isPlain = true := by
      intro s hs
      obtain ⟨step, hstep, rfl⟩ := List.mem_map.mp hs
      exact hplain step (List.mem_mergeSort.mp hstep)
    obtain ⟨q, hq⟩ : ∃ q, Progress.afterAll {} d.ordered = .ok q := by
      rcases hafter : Progress.afterAll {} d.ordered with f | q
      · rw [outcome, hafter] at h
        cases h
      · exact ⟨q, rfl⟩
    refine Progress.isSure_of_afterAll hordered rfl hq s.2 ?_
    exact List.mem_map_of_mem (List.mem_mergeSort.mpr hs)
  · rintro ⟨hsure, rfl⟩
    exact outcome_eq_ok hsure

namespace Node

/-! ## Values of nodes inside others -/

section Values

variable {label : Nat}

theorem mergeSteps_eq_nil {entries : List (Node × Node)} (h : entriesPlain entries = true) :
    mergeSteps entries = [] := by
  induction entries with
  | nil => rfl
  | cons e entries ih =>
    obtain ⟨k, v⟩ := e
    obtain ⟨⟨text, place, rfl⟩, -, hrest⟩ := entriesPlain_cons_iff.mp h
    rw [mergeSteps, ih hrest]
    rfl

/-- The steps towards the entries of a plain mapping are those towards their values. -/
theorem flatMap_entrySteps {entries : List (Node × Node)} (h : entriesPlain entries = true) :
    (draftEntries label entries).flatMap Draft.entrySteps =
      entries.flatMap fun e ↦ (e.2.draft label).inner := by
  induction entries with
  | nil => rfl
  | cons e entries ih =>
    obtain ⟨k, v⟩ := e
    obtain ⟨⟨text, place, rfl⟩, -, hrest⟩ := entriesPlain_cons_iff.mp h
    rw [List.flatMap_cons, ← ih hrest]
    rfl

theorem steps_draft_map {entries : List (Node × Node)} (h : entriesPlain entries = true)
    (place : Place) : ((map .map entries place).draft label).steps =
      (1, .merges place) :: entries.flatMap fun e ↦ (e.2.draft label).inner := by
  rw [← flatMap_entrySteps h, draft, mergedIn_eq_nil h, mergeSteps_eq_nil h]
  rfl

theorem steps_draft_seq (items : List Node) (place : Place) :
    ((seq .seq items place).draft label).steps = items.flatMap fun n ↦ (n.draft label).inner := by
  rw [draft, draftItems_eq_map, ← List.flatMap_map (draft label) Draft.inner]
  rfl

mutual

/-- No step towards the value of a plain node helps another. -/
theorem isPlain_of_mem_steps : ∀ n : Node, n.isPlain = true →
    ∀ s ∈ (n.draft label).steps, s.2.isPlain = true
  | .scalar tag text place, _ => by
    have hofText : ∀ s ∈ (Draft.ofScalar
        (ScalarValue.ofText tag (label + place.index) text)).steps, s.2.isPlain = true := by
      cases ScalarValue.ofText tag (label + place.index) text with
      | ok v => exact fun s hs ↦ absurd hs List.not_mem_nil
      | error f => exact List.forall_mem_singleton.mpr rfl
    -- A scalar with the tag of a collection is no value, and a default key is none by itself.
    cases tag with
    | seq | omap | pairs | map | set | value => exact List.forall_mem_singleton.mpr rfl
    | _ => exact hofText
  | .seq tag items place, h => by
    rw [isPlain, Bool.and_eq_true, decide_eq_true_eq] at h
    rw [h.1, steps_draft_seq, List.forall_mem_flatMap]
    exact isPlain_of_mem_itemSteps items h.2
  | .map tag entries place, h => by
    rw [isPlain, Bool.and_eq_true, decide_eq_true_eq] at h
    rw [h.1, steps_draft_map h.2, List.forall_mem_cons, List.forall_mem_flatMap]
    exact ⟨rfl, isPlain_of_mem_entrySteps entries h.2⟩

theorem isPlain_of_mem_itemSteps : ∀ items : List Node, arePlain items = true →
    ∀ n ∈ items, ∀ s ∈ (n.draft label).inner, s.2.isPlain = true
  | [], _ => fun _ hn ↦ absurd hn List.not_mem_nil
  | n :: rest, h => by
    rw [arePlain, Bool.and_eq_true] at h
    rw [List.forall_mem_cons, Draft.forall_mem_inner Step.isPlain]
    exact ⟨isPlain_of_mem_steps n h.1, isPlain_of_mem_itemSteps rest h.2⟩

theorem isPlain_of_mem_entrySteps : ∀ entries : List (Node × Node), entriesPlain entries = true →
    ∀ e ∈ entries, ∀ s ∈ (e.2.draft label).inner, s.2.isPlain = true
  | [], _ => fun _ he ↦ absurd he List.not_mem_nil
  | (k, v) :: rest, h => by
    obtain ⟨-, hv, hrest⟩ := entriesPlain_cons_iff.mp h
    rw [List.forall_mem_cons, Draft.forall_mem_inner Step.isPlain]
    exact ⟨isPlain_of_mem_steps v hv, isPlain_of_mem_entrySteps rest hrest⟩

end

/-- A plain node has a value exactly if no step towards it fails. -/
theorem value?_eq_ok_iff {n : Node} (h : n.isPlain = true) {v : Value} :
    n.value? label = .ok v ↔
      (∀ s ∈ (n.draft label).steps, s.2.isSure = true) ∧ v = (n.draft label).value :=
  Draft.outcome_eq_ok_iff (isPlain_of_mem_steps n h)

theorem mem_of_itemAt? {token : Text} {index : Nat} {items : List Node} {m : Node}
    (h : itemAt? token index items = some m) : m ∈ items := by
  induction items generalizing index with
  | nil => cases h
  | cons n items ih =>
    rw [itemAt?] at h
    split at h
    next => exact Option.some.inj h ▸ List.mem_cons_self
    next => exact List.mem_cons_of_mem _ (ih h)

theorem exists_entry_of_lastUnder? {token : Text} {entries : List (Node × Node)} {m : Node}
    (h : lastUnder? token entries = some m) :
    ∃ e ∈ entries, e.1.keyText = token ∧ e.2 = m := by
  induction entries with
  | nil => cases h
  | cons e entries ih =>
    rw [lastUnder?, Option.or_eq_some_iff] at h
    rcases h with h | ⟨-, h⟩
    · obtain ⟨f, hf, hm⟩ := ih h
      exact ⟨f, List.mem_cons_of_mem _ hf, hm⟩
    · split at h
      next hkey => exact ⟨e, List.mem_cons_self, hkey, Option.some.inj h⟩
      next => cases h

/-- What has to be done for a node inside another has to be done for the other. -/
theorem isSure_of_child? {n m : Node} {token : Text} (h : n.isPlain = true)
    (hm : n.child? token = some m) (hsure : ∀ s ∈ (n.draft label).steps, s.2.isSure = true) :
    ∀ s ∈ (m.draft label).steps, s.2.isSure = true := by
  cases n with
  | scalar tag text place => cases hm
  | seq tag items place =>
    rw [isPlain, Bool.and_eq_true, decide_eq_true_eq] at h
    rw [h.1, steps_draft_seq, List.forall_mem_flatMap] at hsure
    exact (Draft.forall_mem_inner Step.isSure).mp (hsure m (mem_of_itemAt? hm))
  | map tag entries place =>
    rw [isPlain, Bool.and_eq_true, decide_eq_true_eq] at h
    rw [h.1, steps_draft_map h.2, List.forall_mem_cons, List.forall_mem_flatMap] at hsure
    obtain ⟨e, he, -, rfl⟩ := exists_entry_of_lastUnder? hm
    exact (Draft.forall_mem_inner Step.isSure).mp (hsure.2 e he)

/-- Every node inside a plain node that has a value has one as well. -/
theorem value?_of_at? {n target : Node} {tokens : List Text} {v : Value} (h : n.isPlain = true)
    (hv : n.value? label = .ok v) (ht : n.at? tokens = some target) :
    target.value? label = .ok (target.draft label).value := by
  obtain ⟨hsure, -⟩ := (value?_eq_ok_iff h).mp hv
  clear hv
  induction tokens generalizing n with
  | nil =>
    rw [← Option.some.inj ht]
    exact (value?_eq_ok_iff h).mpr ⟨hsure, rfl⟩
  | cons token tokens ih =>
    obtain ⟨m, hm, ht⟩ := Option.bind_eq_some_iff.mp ht
    exact ih (isPlain_of_child? h hm) ht (isSure_of_child? h hm hsure)

end Values

/-! ## Keys that differ -/

mutual

/-- Whether no mapping in a node has a key twice. -/
def hasDistinctKeys : Node → Bool
  | .scalar _ _ _ => true
  | .seq _ items _ => itemsHaveDistinctKeys items
  | .map _ entries _ =>
    decide (entries.map fun e ↦ e.1.keyText).Nodup && valuesHaveDistinctKeys entries

def itemsHaveDistinctKeys : List Node → Bool
  | [] => true
  | n :: rest => hasDistinctKeys n && itemsHaveDistinctKeys rest

def valuesHaveDistinctKeys : List (Node × Node) → Bool
  | [] => true
  | (_, v) :: rest => hasDistinctKeys v && valuesHaveDistinctKeys rest

end

theorem itemsHaveDistinctKeys_iff {items : List Node} :
    itemsHaveDistinctKeys items = true ↔ ∀ m ∈ items, m.hasDistinctKeys = true := by
  induction items with
  | nil => exact ⟨fun _ m hm ↦ absurd hm List.not_mem_nil, fun _ ↦ rfl⟩
  | cons n items ih =>
    rw [itemsHaveDistinctKeys, Bool.and_eq_true, ih, List.forall_mem_cons]

theorem valuesHaveDistinctKeys_iff {entries : List (Node × Node)} :
    valuesHaveDistinctKeys entries = true ↔ ∀ e ∈ entries, e.2.hasDistinctKeys = true := by
  induction entries with
  | nil => exact ⟨fun _ e he ↦ absurd he List.not_mem_nil, fun _ ↦ rfl⟩
  | cons e entries ih =>
    rw [valuesHaveDistinctKeys, Bool.and_eq_true, ih, List.forall_mem_cons]

theorem hasDistinctKeys_map_iff {tag : Tag} {entries : List (Node × Node)} {place : Place} :
    (map tag entries place).hasDistinctKeys = true ↔
      (entries.map fun e ↦ e.1.keyText).Nodup ∧ ∀ e ∈ entries, e.2.hasDistinctKeys = true := by
  rw [hasDistinctKeys, Bool.and_eq_true, decide_eq_true_eq, valuesHaveDistinctKeys_iff]

theorem hasDistinctKeys_of_child? {n m : Node} {token : Text} (h : n.hasDistinctKeys = true)
    (hm : n.child? token = some m) : m.hasDistinctKeys = true := by
  cases n with
  | scalar tag text place => cases hm
  | seq tag items place => exact itemsHaveDistinctKeys_iff.mp h m (mem_of_itemAt? hm)
  | map tag entries place =>
    obtain ⟨e, he, -, rfl⟩ := exists_entry_of_lastUnder? hm
    exact (hasDistinctKeys_map_iff.mp h).2 e he

/-- Where no key is repeated, the last entry under a key is the only one. -/
theorem lastUnder?_of_mem {entries : List (Node × Node)}
    (h : (entries.map fun e ↦ e.1.keyText).Nodup) {e : Node × Node} (he : e ∈ entries) :
    lastUnder? e.1.keyText entries = some e.2 := by
  induction entries with
  | nil => exact absurd he List.not_mem_nil
  | cons f entries ih =>
    rw [List.map_cons, List.nodup_cons] at h
    rw [lastUnder?]
    rcases List.mem_cons.mp he with rfl | he
    · have hnone : lastUnder? e.1.keyText entries = none := by
        by_contra hsome
        obtain ⟨m, hm⟩ := Option.ne_none_iff_exists'.mp hsome
        obtain ⟨f, hf, hkey, -⟩ := exists_entry_of_lastUnder? hm
        exact h.1 (hkey ▸ List.mem_map_of_mem hf)
      rw [hnone, if_pos rfl]
      rfl
    · rw [ih h.2 he]
      rfl

/-- A position inside a sequence is at or inside the item under some index. -/
theorem exists_item_of_mem_itemPositions {base : Text} {index : Nat} {items : List Node}
    {e : Text × Source.Position} (he : e ∈ itemPositions base index items) :
    ∃ (i : Nat) (m : Node), index ≤ i ∧ itemAt? (Text.ofString (toString i)) index items = some m ∧
      e ∈ m.positions (Pointer.join base (toString i)) := by
  induction items generalizing index with
  | nil => exact absurd he List.not_mem_nil
  | cons n items ih =>
    rw [itemPositions, List.mem_append] at he
    rcases he with he | he
    · exact ⟨index, n, Nat.le_refl _, if_pos rfl, he⟩
    · obtain ⟨i, m, hi, hm, he⟩ := ih he
      refine ⟨i, m, Nat.le_of_succ_le hi, ?_, he⟩
      rw [itemAt?, if_neg, hm]
      intro hsame
      have := toString_index_inj.mp hsame
      omega

theorem exists_entry_of_mem_entryPositions {base : Text} {entries : List (Node × Node)}
    {e : Text × Source.Position} (he : e ∈ entryPositions base entries) :
    ∃ f ∈ entries, e ∈ f.2.positions (Pointer.join base f.1.keyText) := by
  induction entries with
  | nil => exact absurd he List.not_mem_nil
  | cons f entries ih =>
    rw [entryPositions, List.mem_append] at he
    rcases he with he | he
    · exact ⟨f, List.mem_cons_self, he⟩
    · obtain ⟨f', hf', he⟩ := ih he
      exact ⟨f', List.mem_cons_of_mem _ hf', he⟩

/-- Where no key is repeated, a position that is below the node itself is at or inside a child. -/
theorem exists_child_of_mem_positions {n : Node} (h : n.hasDistinctKeys = true) {base : Text}
    {e : Text × Source.Position} (he : e ∈ n.positions base) :
    e.1 = base ∨
      ∃ token m, n.child? token = some m ∧ e ∈ m.positions (Pointer.join base token) := by
  cases n with
  | scalar tag text place =>
    rw [positions, List.mem_singleton] at he
    exact Or.inl (congrArg Prod.fst he)
  | seq tag items place =>
    rcases List.mem_cons.mp he with rfl | he
    · exact Or.inl rfl
    · obtain ⟨i, m, -, hm, he⟩ := exists_item_of_mem_itemPositions he
      exact Or.inr ⟨_, m, hm, he⟩
  | map tag entries place =>
    rcases List.mem_cons.mp he with rfl | he
    · exact Or.inl rfl
    · obtain ⟨f, hf, he⟩ := exists_entry_of_mem_entryPositions he
      exact Or.inr ⟨_, f.2, lastUnder?_of_mem (hasDistinctKeys_map_iff.mp h).1 hf, he⟩

/-- Where no key is repeated, every position is that of a node that tokens lead to. -/
theorem isSome_at?_of_mem_positions {n : Node} (h : n.hasDistinctKeys = true) {base : Text}
    {tokens : List Text} {e : Text × Source.Position} (he : e ∈ n.positions base)
    (hpointer : e.1 = base ++ Pointer.ofTokens tokens) : (n.at? tokens).isSome = true := by
  induction tokens generalizing n base with
  | nil => rfl
  | cons token tokens ih =>
    rcases exists_child_of_mem_positions h he with hself | ⟨token', m, hm, he⟩
    · rw [hself, Pointer.ofTokens_cons] at hpointer
      exact absurd (List.self_eq_append_right.mp hpointer) (List.cons_ne_nil _ _)
    · obtain ⟨others, hothers⟩ := exists_tokens_of_mem_positions m _ e he
      have hpointers := hothers.symm.trans hpointer
      rw [Pointer.join_append_ofTokens] at hpointers
      obtain ⟨rfl, rfl⟩ := List.cons.inj
        (Pointer.ofTokens_inj.mp (List.append_cancel_left hpointers))
      rw [at?, hm, Option.bind_some]
      exact ih (hasDistinctKeys_of_child? h hm) he hothers

/-- Every part of the value of a plain node was constructed from the node that the same tokens lead
to, the last one under each key, and the source map has the position of that node, counted from one,
under the pointer of the tokens. Where no key is repeated, it has no pointers but those of parts. -/
theorem lookup_sourceMap_of_part {label : Nat} {n : Node} {document : Value}
    (hplain : n.isPlain = true) (hvalue : n.value? label = .ok document) :
    (∀ tokens part, document.at? tokens = some part →
      ∃ target, n.at? tokens = some target ∧ target.value? label = .ok part ∧
        n.sourceMap.lookup (Pointer.ofTokens tokens) =
          some (some ⟨some (target.place.line + 1), some (target.place.column + 1)⟩)) ∧
    (n.hasDistinctKeys = true → ∀ e ∈ n.sourceMap,
      ∃ tokens, e.1 = Pointer.ofTokens tokens ∧ (document.at? tokens).isSome = true) := by
  obtain ⟨-, hdocument⟩ := (value?_eq_ok_iff hplain).mp hvalue
  have hat (tokens : List Text) :
      document.at? tokens = (n.at? tokens).map fun m ↦ (m.draft label).value := by
    rw [hdocument, at?_draft hplain]
  constructor
  · intro tokens part hpart
    rw [hat, Option.map_eq_some_iff] at hpart
    obtain ⟨target, htarget, rfl⟩ := hpart
    exact ⟨target, htarget, value?_of_at? hplain hvalue htarget, lookup_sourceMap htarget⟩
  · intro hkeys e he
    obtain ⟨position, -, hseen⟩ := Source.Map.exists_seen_of_mem_ofList he
    obtain ⟨tokens, htokens⟩ := exists_tokens_of_mem_positions n [] _ hseen
    refine ⟨tokens, htokens, ?_⟩
    rw [hat, Option.isSome_map]
    exact isSome_at?_of_mem_positions hkeys hseen htokens

/-! ## Texts with an alias, without and with a repeated key -/

/-- A list that an alias repeats. -/
def aliasText : Text := "a: &x [\x7bk: 1\x7d]\nc: *x"

/-- The same list under a key that is there twice. The first value under it has a key that the list
has no place for. -/
def repeatedKeyText : Text := "a: &x [\x7bk: 1\x7d]\nc: \x7bb: 1\x7d\nc: *x"

/-- Whether a text holds a plain node that has a value, and the node is such as asked. -/
def holdsPlain (t : Text) (condition : Node → Bool) : Bool :=
  match rootOf? t with
  | .ok (some n) =>
    n.isPlain && (n.draft firstLabel).steps.all (·.2.isSure) && condition n
  | _ => false

theorem exists_of_holdsPlain {t : Text} {condition : Node → Bool}
    (h : holdsPlain t condition = true) :
    ∃ n, rootOf? t = .ok (some n) ∧ n.isPlain = true ∧
      n.value? firstLabel = .ok (n.draft firstLabel).value ∧ condition n = true := by
  rw [holdsPlain] at h
  split at h
  next n hroot =>
    rw [Bool.and_eq_true, Bool.and_eq_true, List.all_eq_true] at h
    obtain ⟨⟨hplain, hsteps⟩, hcondition⟩ := h
    exact ⟨n, hroot, hplain, Draft.outcome_eq_ok hsteps, hcondition⟩
  next => cases h

set_option maxRecDepth 10000 in
theorem holdsPlain_aliasText : holdsPlain aliasText hasDistinctKeys = true := by
  decide +kernel

/-- What a pointer was left behind for: the node is known, but there is no part of the value. -/
def isLeftBehind (n : Node) (tokens : List Text) : Bool :=
  (n.sourceMap.lookup (Pointer.ofTokens tokens)).isSome &&
    ((n.draft firstLabel).value.at? tokens).isNone

set_option maxRecDepth 10000 in
theorem holdsPlain_repeatedKeyText : holdsPlain repeatedKeyText (fun n ↦
    ((n.draft firstLabel).value.at? ["c", "0", "k"]).isSome && n.isLeftBehind ["c", "b"]) =
      true := by
  decide +kernel

/-- Without a repeated key every pointer is that of a part. With one, a part inside the list is
found where the anchored list stands, and a pointer is left behind. -/
theorem lookup_sourceMap_aliasText :
    (∃ n document, rootOf? aliasText = .ok (some n) ∧ n.isPlain = true ∧
      n.value? firstLabel = .ok document ∧ n.hasDistinctKeys = true ∧
      ∀ e ∈ n.sourceMap,
        ∃ tokens, e.1 = Pointer.ofTokens tokens ∧ (document.at? tokens).isSome = true) ∧
    ∃ n document, rootOf? repeatedKeyText = .ok (some n) ∧ n.isPlain = true ∧
      n.value? firstLabel = .ok document ∧ n.isLeftBehind ["c", "b"] = true ∧
      ∃ part target, document.at? ["c", "0", "k"] = some part ∧
        n.at? ["c", "0", "k"] = some target ∧ target.value? firstLabel = .ok part ∧
        n.sourceMap.lookup (Pointer.ofTokens ["c", "0", "k"]) =
          some (some ⟨some (target.place.line + 1), some (target.place.column + 1)⟩) := by
  constructor
  · obtain ⟨n, hroot, hplain, hvalue, hkeys⟩ := exists_of_holdsPlain holdsPlain_aliasText
    exact ⟨n, _, hroot, hplain, hvalue, hkeys, (lookup_sourceMap_of_part hplain hvalue).2 hkeys⟩
  · obtain ⟨n, hroot, hplain, hvalue, hcondition⟩ :=
      exists_of_holdsPlain holdsPlain_repeatedKeyText
    rw [Bool.and_eq_true] at hcondition
    obtain ⟨part, hpart⟩ := Option.isSome_iff_exists.mp hcondition.1
    obtain ⟨target, hposition⟩ := (lookup_sourceMap_of_part hplain hvalue).1 _ part hpart
    exact ⟨n, _, hroot, hplain, hvalue, hcondition.2, part, target, hpart, hposition⟩

end Node

end Yaml

end EntityGraph
