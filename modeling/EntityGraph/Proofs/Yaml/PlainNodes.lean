import EntityGraph.Proofs.Table.Updates
import EntityGraph.Proofs.Value.Parts
import EntityGraph.Yaml.Document

/-!
# Plain nodes

A node is plain if nothing is merged in it, its keys are texts, and its collections are read as what
they look like. The value of a plain node has the shape of the node: what tokens lead to in the
value is the value of what they lead to in the node. Of the entries under a repeated key the last
one counts in both.

No step towards the value of a plain node depends on another step, so the value is there as soon as
every scalar has one.
-/

namespace EntityGraph

/-! ## Values without parts -/

namespace Value

/-- Whether a value has no parts, being no mapping and no sequence of items. -/
def isAtom : Value → Bool
  | .map _ => false
  | .seq items => items.isEmpty
  | _ => true

theorem child?_of_isAtom {v : Value} (h : v.isAtom = true) (token : Text) :
    v.child? token = none := by
  cases v with
  | map entries => cases h
  | seq items => rw [List.isEmpty_iff.mp h]; rfl
  | _ => rfl

theorem hasTextKeys_of_isAtom {v : Value} (h : v.isAtom = true) : v.HasTextKeys := by
  cases v with
  | map entries => cases h
  | _ => exact ⟨rfl, rfl⟩

end Value

/-! ## Tables under texts -/

namespace Table

variable {t : Table Value} {s key : Text} {v : Value}

theorem lookup_insert : Value.lookup key (t.insert (.str s) v) =
    if s = key then some v else Value.lookup key t := by
  induction t with
  | nil => rfl
  | cons e t ih =>
    obtain ⟨n, w⟩ := e
    rw [insert]
    by_cases hsame : (Value.str s).same n = true
    · rw [if_pos hsame]
      cases n with
      | str u =>
        have hsu : s = u := by simpa [Value.same] using hsame
        rw [hsu, Value.lookup, Value.lookup]
        split
        next => rfl
        next => rfl
      | _ => simp [Value.same, Value.number?] at hsame
    · rw [if_neg hsame]
      cases n with
      | str u =>
        rw [Value.lookup, Value.lookup, ih]
        have hne : s ≠ u := by
          rintro rfl
          simp [Value.same] at hsame
        by_cases hu : u = key
        · rw [if_pos hu, if_pos hu, if_neg (hu ▸ hne)]
        · rw [if_neg hu, if_neg hu]
      | _ => exact ih

/-- Keys that are texts and differ stay so when another text is put in. -/
theorem hasTextKeys_insert (h : (Value.map t).HasTextKeys) (hv : v.HasTextKeys) :
    (Value.map (t.insert (.str s) v)).HasTextKeys := by
  obtain ⟨hpairs, hentries⟩ := Value.hasTextKeys_map_iff.mp h
  refine Value.hasTextKeys_map_iff.mpr ⟨?_, fun e he ↦ ⟨?_, ?_⟩⟩
  · clear h hentries
    induction t with
    | nil => exact List.pairwise_singleton _ _
    | cons e t ih =>
      obtain ⟨hfirst, hrest⟩ := List.pairwise_cons.mp hpairs
      rw [insert]
      split
      next => exact List.pairwise_cons.mpr ⟨hfirst, hrest⟩
      next hsame =>
        refine List.pairwise_cons.mpr ⟨fun f hf ↦ ?_, ih hrest⟩
        rcases (mem_insert hf).1 with hkey | ⟨f', hf', hkey⟩
        · rw [hkey, ← Value.same_comm rfl]
          exact Bool.eq_false_iff.mpr hsame
        · rw [← hkey]
          exact hfirst f' hf'
  · rcases (mem_insert he).1 with hkey | ⟨e', he', hkey⟩
    · rw [hkey]
      rfl
    · rw [← hkey]
      exact (hentries e' he').1
  · rcases (mem_insert he).2 with hvalue | ⟨e', he', hvalue⟩
    · rw [hvalue]
      exact hv
    · rw [← hvalue]
      exact (hentries e' he').2

end Table

namespace Yaml

/-! ## Steps that do not fail -/

/-- Whether a step is taken whatever was done before it. -/
def Step.isSure : Step → Bool
  | .makesText _ | .merges _ => true
  | _ => false

theorem Progress.exists_afterAll {steps : List Step} (h : ∀ s ∈ steps, s.isSure = true)
    (p : Progress) : ∃ q, p.afterAll steps = .ok q := by
  induction steps generalizing p with
  | nil => exact ⟨p, rfl⟩
  | cons s steps ih =>
    obtain ⟨hs, hrest⟩ := List.forall_mem_cons.mp h
    cases s with
    | makesText key => exact ih hrest _
    | merges mapping => exact ih hrest _
    | _ => cases hs

namespace Draft

variable {α : Type} {d : Draft α}

theorem outcome_eq_ok (h : ∀ s ∈ d.steps, s.2.isSure = true) : d.outcome = .ok d.value := by
  have hordered : ∀ s ∈ d.ordered, s.isSure = true := by
    intro s hs
    obtain ⟨step, hstep, rfl⟩ := List.mem_map.mp hs
    exact h step (List.mem_mergeSort.mp hstep)
  obtain ⟨q, hq⟩ := Progress.exists_afterAll hordered {}
  rw [outcome, hq]
  rfl

theorem eq_value_of_outcome {a : α} (h : d.outcome = .ok a) : a = d.value := by
  rw [outcome] at h
  cases hafter : Progress.afterAll {} d.ordered with
  | error f => rw [hafter] at h; cases h
  | ok q => rw [hafter] at h; exact (Except.ok.inj h).symm

end Draft

namespace Node

/-! ## Plainness -/

/-- Whether a node is a scalar that stands for a text. -/
def isTextKey : Node → Bool
  | .scalar .str _ _ => true
  | _ => false

mutual

/-- Whether a node is read as what it looks like: its mappings and sequences have the usual tags,
and all keys are texts. -/
def isPlain : Node → Bool
  | .scalar _ _ _ => true
  | .seq tag items _ => tag = .seq && arePlain items
  | .map tag entries _ => tag = .map && entriesPlain entries

def arePlain : List Node → Bool
  | [] => true
  | n :: rest => isPlain n && arePlain rest

def entriesPlain : List (Node × Node) → Bool
  | [] => true
  | (k, v) :: rest => isTextKey k && isPlain v && entriesPlain rest

end

/-! ## Parts -/

/-- The value of the last entry with a key of that text. -/
def lastUnder? (token : Text) : List (Node × Node) → Option Node
  | [] => none
  | (k, v) :: rest => (lastUnder? token rest).or (if k.keyText = token then some v else none)

/-- The node under a token: the last one under that key, or the item of that index. -/
def child? (token : Text) : Node → Option Node
  | .scalar _ _ _ => none
  | .seq _ items _ => itemAt? token 0 items
  | .map _ entries _ => lastUnder? token entries

/-- The node that tokens lead to. -/
def at? : List Text → Node → Option Node
  | [], n => some n
  | token :: rest, n => (n.child? token).bind (at? rest)

theorem isPlain_of_itemAt? {token : Text} {index : Nat} {items : List Node} {m : Node}
    (h : arePlain items = true) (hm : itemAt? token index items = some m) : m.isPlain = true := by
  induction items generalizing index with
  | nil => cases hm
  | cons n items ih =>
    rw [arePlain, Bool.and_eq_true] at h
    rw [itemAt?] at hm
    split at hm
    next => exact Option.some.inj hm ▸ h.1
    next => exact ih h.2 hm

theorem isPlain_of_lastUnder? {token : Text} {entries : List (Node × Node)} {m : Node}
    (h : entriesPlain entries = true) (hm : lastUnder? token entries = some m) :
    m.isPlain = true := by
  induction entries with
  | nil => cases hm
  | cons e entries ih =>
    obtain ⟨k, v⟩ := e
    rw [entriesPlain, Bool.and_eq_true, Bool.and_eq_true] at h
    rw [lastUnder?, Option.or_eq_some_iff] at hm
    rcases hm with hm | ⟨-, hm⟩
    · exact ih h.2 hm
    · split at hm
      next => exact Option.some.inj hm ▸ h.1.2
      next => cases hm

theorem isPlain_of_child? {token : Text} {n m : Node} (h : n.isPlain = true)
    (hm : n.child? token = some m) : m.isPlain = true := by
  cases n with
  | scalar tag text place => cases hm
  | seq tag items place =>
    rw [isPlain, Bool.and_eq_true] at h
    exact isPlain_of_itemAt? h.2 hm
  | map tag entries place =>
    rw [isPlain, Bool.and_eq_true] at h
    exact isPlain_of_lastUnder? h.2 hm

/-! ## Values -/

section Values

variable {label : Nat}

theorem draftItems_eq_map (items : List Node) :
    draftItems label items = items.map (draft label) := by
  induction items with
  | nil => rfl
  | cons n items ih => rw [draftItems, ih, List.map_cons]

theorem isAtom_ofText {tag : Tag} {text : Text} {v : Value}
    (h : ScalarValue.ofText tag label text = .ok v) : v.isAtom = true := by
  have hmap {α : Type} {x : Except ScalarFault α} {f : α → Value}
      (hx : (x.map f).mapError Failure.scalar = .ok v) : ∃ a, v = f a := by
    cases x with
    | error e => cases hx
    | ok a => exact ⟨a, (Except.ok.inj hx).symm⟩
  cases tag with
  | null => cases h; rfl
  | bool => obtain ⟨b, rfl⟩ := hmap h; rfl
  | int => obtain ⟨n, rfl⟩ := hmap h; rfl
  | float => obtain ⟨x, rfl⟩ := hmap h; rfl
  | str => cases h; rfl
  | timestamp =>
    rw [ScalarValue.ofText, ScalarValue.timestamp] at h
    split at h
    next => cases h
    next stamp _ =>
      rw [Timestamp.toValue] at h
      cases htime : stamp.time with
      | none =>
        rw [htime] at h
        cases hdate : stamp.date.check with
        | error e => rw [hdate] at h; cases h
        | ok d => rw [hdate] at h; cases h; rfl
      | some parts =>
        obtain ⟨hour, minute, second, microsecond, offset⟩ := parts
        rw [htime] at h
        dsimp only at h
        cases hmoment : Moment.check ⟨stamp.date, hour, minute, second, microsecond, offset⟩ with
        | error e => rw [hmoment] at h; cases h
        | ok m => rw [hmoment] at h; cases h; rfl
  | binary =>
    rw [ScalarValue.ofText] at h
    split at h
    next => cases h; rfl
    next => cases h
  | _ => cases h

theorem isAtom_draft_scalar (tag : Tag) (text : Text) (place : Place) :
    ((scalar tag text place).draft label).value.isAtom = true := by
  have hofText : (Draft.ofScalar (ScalarValue.ofText tag (label + place.index) text)).value.isAtom =
      true := by
    cases hread : ScalarValue.ofText tag (label + place.index) text with
    | error f => rfl
    | ok v => exact isAtom_ofText hread
  cases tag with
  | seq => rfl
  | omap => rfl
  | pairs => rfl
  | map => rfl
  | set => rfl
  | value => rfl
  | _ => exact hofText

/-- A key that is a text is one in the value. -/
theorem isTextKey_iff {k : Node} :
    k.isTextKey = true ↔ ∃ text place, k = .scalar .str text place := by
  constructor
  · intro h
    unfold isTextKey at h
    split at h
    next text place => exact ⟨text, place, rfl⟩
    next => cases h
  · rintro ⟨text, place, rfl⟩
    rfl

theorem entriesPlain_cons_iff {k v : Node} {rest : List (Node × Node)} :
    entriesPlain ((k, v) :: rest) = true ↔ (∃ text place, k = .scalar .str text place) ∧
      v.isPlain = true ∧ entriesPlain rest = true := by
  rw [entriesPlain, Bool.and_eq_true, Bool.and_eq_true, isTextKey_iff, and_assoc]

/-- The table that entries come to, one after the other. -/
def entered (label : Nat) (t : Table Value) (entries : List (Node × Node)) : Table Value :=
  (draftEntries label entries).foldl (fun t e ↦ t.insert e.1.value e.2.value) t

theorem entered_cons (t : Table Value) (text : Text) (place : Place) (v : Node)
    (rest : List (Node × Node)) : entered label t ((.scalar .str text place, v) :: rest) =
      entered label (t.insert (.str text) (v.draft label).value) rest := rfl

theorem mergedIn_eq_nil {entries : List (Node × Node)} (h : entriesPlain entries = true) :
    mergedIn label entries = [] := by
  induction entries with
  | nil => rfl
  | cons e entries ih =>
    obtain ⟨k, v⟩ := e
    obtain ⟨⟨text, place, rfl⟩, -, hrest⟩ := entriesPlain_cons_iff.mp h
    rw [mergedIn, ih hrest]
    rfl

theorem value_draft_map {entries : List (Node × Node)} (h : entriesPlain entries = true)
    (place : Place) :
    ((map .map entries place).draft label).value = .map (entered label [] entries) := by
  rw [draft, mergedIn_eq_nil h]
  rfl

theorem lookup_entered {entries : List (Node × Node)} (h : entriesPlain entries = true)
    (t : Table Value) (token : Text) :
    Value.lookup token (entered label t entries) =
      ((lastUnder? token entries).map fun m ↦ (m.draft label).value).or
        (Value.lookup token t) := by
  induction entries generalizing t with
  | nil => rfl
  | cons e entries ih =>
    obtain ⟨k, v⟩ := e
    obtain ⟨⟨text, place, rfl⟩, -, hrest⟩ := entriesPlain_cons_iff.mp h
    rw [entered_cons, ih hrest, Table.lookup_insert, lastUnder?, keyText]
    cases lastUnder? token entries with
    | some m => rfl
    | none =>
      by_cases htext : text = token
      · rw [if_pos htext, if_pos htext]
        rfl
      · rw [if_neg htext, if_neg htext]
        rfl

/-- The part of the value of a plain node under a token is the value of the node there. -/
theorem child?_draft {n : Node} (h : n.isPlain = true) (token : Text) :
    (n.draft label).value.child? token = (n.child? token).map fun m ↦ (m.draft label).value := by
  cases n with
  | scalar tag text place => exact Value.child?_of_isAtom (isAtom_draft_scalar tag text place) token
  | seq tag items place =>
    rw [isPlain, Bool.and_eq_true, decide_eq_true_eq] at h
    rw [h.1, child?, ← itemAt?_map]
    change itemAt? token 0 ((draftItems label items).map (·.value)) = _
    rw [draftItems_eq_map, List.map_map]
    rfl
  | map tag entries place =>
    rw [isPlain, Bool.and_eq_true, decide_eq_true_eq] at h
    rw [h.1, value_draft_map h.2, Value.child?, lookup_entered h.2, child?]
    exact Option.or_none

/-- What tokens lead to in the value of a plain node is the value of what they lead to in the
node. -/
theorem at?_draft {n : Node} (h : n.isPlain = true) (tokens : List Text) :
    (n.draft label).value.at? tokens = (n.at? tokens).map fun m ↦ (m.draft label).value := by
  induction tokens generalizing n with
  | nil => rfl
  | cons token tokens ih =>
    rw [Value.at?, at?, child?_draft h]
    cases hm : n.child? token with
    | none => rfl
    | some m => exact ih (isPlain_of_child? h hm)

mutual

/-- The keys in the value of a plain node are texts and differ. -/
theorem hasTextKeys_draft : ∀ n : Node, n.isPlain = true → (n.draft label).value.HasTextKeys
  | .scalar tag text place, _ => Value.hasTextKeys_of_isAtom (isAtom_draft_scalar tag text place)
  | .seq tag items place, h => by
    rw [isPlain, Bool.and_eq_true, decide_eq_true_eq] at h
    rw [h.1]
    exact ⟨rfl, rfl⟩
  | .map tag entries place, h => by
    rw [isPlain, Bool.and_eq_true, decide_eq_true_eq] at h
    rw [h.1, value_draft_map h.2]
    exact hasTextKeys_entered entries [] h.2 ⟨rfl, rfl⟩

theorem hasTextKeys_entered : ∀ (entries : List (Node × Node)) (t : Table Value),
    entriesPlain entries = true → (Value.map t).HasTextKeys →
      (Value.map (entered label t entries)).HasTextKeys
  | [], _, _, ht => ht
  | (k, v) :: rest, t, h, ht => by
    obtain ⟨⟨text, place, rfl⟩, hv, hrest⟩ := entriesPlain_cons_iff.mp h
    rw [entered_cons]
    exact hasTextKeys_entered rest _ hrest (Table.hasTextKeys_insert ht (hasTextKeys_draft v hv))

end

end Values

end Node

end Yaml

end EntityGraph
