import EntityGraph.Proofs.Value.Keys

/-!
# Parts of values

What tokens lead to in a value: a key leads to the value under it, and an index to an item. In a
mapping whose keys are texts and differ, the value of every entry is what its key leads to.
-/

namespace EntityGraph

/-- The item that a token is the index of, where the first item has a number as its index. -/
def itemAt? {α : Type} (token : Text) (index : Nat) : List α → Option α
  | [] => none
  | x :: rest =>
    if Text.ofString (toString index) = token then some x else itemAt? token (index + 1) rest

theorem itemAt?_map {α β : Type} (f : α → β) (token : Text) (index : Nat) (xs : List α) :
    itemAt? token index (xs.map f) = (itemAt? token index xs).map f := by
  induction xs generalizing index with
  | nil => rfl
  | cons x xs ih =>
    rw [List.map_cons, itemAt?, itemAt?, ih]
    split
    next => rfl
    next => rfl

/-- Different indices are written differently. -/
theorem toString_index_inj {i j : Nat} :
    Text.ofString (toString i) = Text.ofString (toString j) ↔ i = j := by
  rw [Text.ofString_inj]
  constructor
  · intro h
    have hdigits := congrArg (fun s : String ↦ Nat.ofDigitChars 10 s.toList 0) h
    simpa [Nat.toString_eq_ofList_toDigits] using hdigits
  · rintro rfl
    rfl

namespace Value

/-- The part of a value under a token: the value of a key, or the item of an index. -/
def child? (token : Text) : Value → Option Value
  | .map entries => lookup token entries
  | .seq items => itemAt? token 0 items
  | _ => none

/-- The part of a value that tokens lead to. -/
def at? : List Text → Value → Option Value
  | [], v => some v
  | token :: rest, v => (v.child? token).bind (at? rest)

@[simp] theorem at?_nil (v : Value) : v.at? [] = some v := rfl

theorem at?_append (tokens others : List Text) (v : Value) :
    v.at? (tokens ++ others) = (v.at? tokens).bind (at? others) := by
  induction tokens generalizing v with
  | nil => rfl
  | cons token tokens ih =>
    rw [List.cons_append, at?, at?, Option.bind_assoc]
    exact congrArg _ (funext ih)

theorem at?_singleton (token : Text) (v : Value) : v.at? [token] = v.child? token := by
  rw [at?, show at? [] = some from rfl, Option.bind_fun_some]

/-- What is read under a key and is not null is the part there. -/
theorem child?_of_field {v : Value} {key : Text} (h : (v.field key).isNull = false) :
    v.child? key = some (v.field key) := by
  cases v with
  | map entries =>
    rw [field] at h ⊢
    rw [child?]
    cases hlookup : lookup key entries with
    | none => rw [hlookup] at h; cases h
    | some w => rfl
  | _ => cases h

/-! ## Keys that are texts -/

/-- Whether the keys of a mapping are texts and differ, and so for the mappings under it. -/
def HasTextKeys (v : Value) : Prop := v.keysDiffer = true ∧ v.keysAreTexts = true

theorem HasTextKeys.field {v : Value} (h : v.HasTextKeys) (key : Text) :
    (v.field key).HasTextKeys :=
  ⟨keysDiffer_field h.1 key, keysAreTexts_field h.2 key⟩

theorem hasTextKeys_map_iff {entries : List (Value × Value)} :
    (Value.map entries).HasTextKeys ↔
      entries.Pairwise (fun e f ↦ e.1.same f.1 = false) ∧
        ∀ e ∈ entries, e.1.isText = true ∧ e.2.HasTextKeys := by
  constructor
  · rintro ⟨hdiffer, htexts⟩
    obtain ⟨hpairs, hkeys⟩ := entryKeysDiffer_iff.mp hdiffer
    have hentries := entryKeysAreTexts_iff.mp htexts
    exact ⟨hpairs, fun e he ↦ ⟨(hentries e he).1, (hkeys e he).2, (hentries e he).2⟩⟩
  · rintro ⟨hpairs, h⟩
    exact ⟨entryKeysDiffer_iff.mpr
        ⟨hpairs, fun e he ↦ ⟨isKey_of_isText (h e he).1, (h e he).2.1⟩⟩,
      entryKeysAreTexts_iff.mpr fun e he ↦ ⟨(h e he).1, (h e he).2.2⟩⟩

/-- The key of an entry leads to its value. -/
theorem HasTextKeys.child?_of_mem {entries : List (Value × Value)}
    (h : (Value.map entries).HasTextKeys) {e : Value × Value} (he : e ∈ entries) :
    ∃ token, e.1 = .str token ∧ (Value.map entries).child? token = some e.2 := by
  obtain ⟨hpairs, hentries⟩ := hasTextKeys_map_iff.mp h
  obtain ⟨token, htoken⟩ := isText_iff.mp (hentries e he).1
  refine ⟨token, htoken, ?_⟩
  rw [child?]
  clear h
  induction entries with
  | nil => cases he
  | cons e' entries ih =>
    obtain ⟨k, w⟩ := e'
    obtain ⟨hfirst, hrest⟩ := List.pairwise_cons.mp hpairs
    obtain ⟨⟨hk, -⟩, hothers⟩ := List.forall_mem_cons.mp hentries
    obtain ⟨s, rfl⟩ := isText_iff.mp hk
    rw [lookup]
    rcases List.mem_cons.mp he with rfl | he
    · rw [if_pos (Value.str.inj htoken)]
    · have hne : s ≠ token := by
        rintro rfl
        have hsame := hfirst e he
        rw [htoken] at hsame
        simp [same] at hsame
      rw [if_neg hne]
      exact ih he hrest hothers

end Value

end EntityGraph
