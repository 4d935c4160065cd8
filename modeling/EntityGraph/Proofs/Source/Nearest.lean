import EntityGraph.Proofs.Source.Positions
import Mathlib.Data.List.Induction

/-!
# Nearest positions

A pointer is looked up together with the pointers around it, the nearest first. This can be told as
a loop: a pointer that the map does not know, or knows as an empty one, is cut off at its last
slash, until the map has a position for what is left or nothing is left. The loop ends for every
text, whether it is the pointer of tokens or not, since each cut leaves a shorter text.

On the pointer of tokens a cut takes away the last token, whatever it is: no written token holds a
slash, and a token without characters still has the slash before it. So the loop finds the longest
start of the tokens that the map knows. A map of a document knows the root, and there is always
something to find.
-/

namespace EntityGraph

/-! ## Cutting off the last token -/

namespace Pointer

/-- What stands before the last slash of a pointer; the root if it has none. -/
def enclosing (pointer : Text) : Text :=
  ((pointer.reverse.dropWhile (· ≠ .char '/')).drop 1).reverse

@[simp] theorem enclosing_nil : enclosing [] = [] := rfl

/-- A cut leaves less. -/
theorem length_enclosing_lt {pointer : Text} (h : pointer ≠ []) :
    (enclosing pointer).length < pointer.length := by
  have hdrop : (pointer.reverse.dropWhile (· ≠ .char '/')).length ≤ pointer.reverse.length :=
    (List.dropWhile_sublist _).length_le
  have hpositive : 0 < pointer.length := List.length_pos_of_ne_nil h
  rw [List.length_reverse] at hdrop
  rw [enclosing, List.length_reverse, List.length_drop]
  omega

/-- A cut takes away one token, whatever it is. -/
theorem enclosing_join (base token : Text) : enclosing (join base token) = base := by
  have hescape : ∀ x ∈ (escape token).reverse, decide (x ≠ .char '/') = true := by
    intro x hx
    rw [decide_eq_true_eq]
    rintro rfl
    exact slash_notMem_escape token (List.mem_reverse.mp hx)
  rw [enclosing, join, List.reverse_append, List.reverse_cons, List.append_assoc,
    List.dropWhile_append_of_pos hescape]
  exact List.reverse_reverse base

theorem enclosing_reverse_cons (x : CodePoint) (backwards : Text) :
    enclosing (x :: backwards).reverse =
      if x = .char '/' then backwards.reverse else enclosing backwards.reverse := by
  rw [enclosing, enclosing, List.reverse_reverse, List.reverse_reverse]
  by_cases hx : x = .char '/'
  · rw [if_pos hx, hx]
    rfl
  · rw [if_neg hx, List.dropWhile_cons, if_pos (decide_eq_true hx)]

/-- The pointers around one are what a cut leaves and the pointers around that. -/
theorem findSome?_enclosingBackwards {α : Type} (f : Text → Option α) (backwards : Text) :
    ((enclosingBackwards backwards).map List.reverse).findSome? f =
      (withEnclosing (enclosing backwards.reverse)).findSome? f := by
  induction backwards with
  | nil =>
    -- The root has been looked at before, and looking again changes nothing.
    change [[]].findSome? f = [[], []].findSome? f
    rcases hroot : f [] with - | a <;> simp [hroot]
  | cons x rest ih =>
    rw [enclosingBackwards, enclosing_reverse_cons]
    split
    next => rw [withEnclosing, List.reverse_reverse, List.map_cons]
    next => exact ih

end Pointer

/-! ## The search for a position -/

namespace Source.Map

/-- A search from a pointer on comes to an end with what it found: a position that the map has, or
nothing if it has none for the root. As long as there is none for a pointer, be it that the map does
not know it or that it is empty there, the pointer is cut. -/
inductive Search (m : Map) : Text → Option Position → Prop where
  | known {pointer : Text} {position : Position} :
    m.position? pointer = some position → Search m pointer (some position)
  | missing : m.position? [] = none → Search m [] none
  | cut {pointer : Text} {found : Option Position} : m.position? pointer = none → pointer ≠ [] →
    Search m (Pointer.enclosing pointer) found → Search m pointer found

variable {m : Map} {pointer : Text}

/-- A step of the search. -/
theorem nearest?_eq (m : Map) (pointer : Text) : m.nearest? pointer =
    (m.position? pointer).or (m.nearest? (Pointer.enclosing pointer)) := by
  rw [nearest?, nearest?, Pointer.withEnclosing, List.findSome?_cons,
    Pointer.findSome?_enclosingBackwards, List.reverse_reverse]
  rcases m.position? pointer with - | position <;> rfl

theorem nearest?_nil (m : Map) : m.nearest? [] = m.position? [] := by
  change [[], []].findSome? m.position? = m.position? []
  rcases hroot : m.position? [] with - | position <;> simp [hroot]

/-- Every search ends, with the nearest position. -/
theorem search_nearest? (m : Map) (pointer : Text) : m.Search pointer (m.nearest? pointer) := by
  induction hlength : pointer.length using Nat.strongRecOn generalizing pointer with
  | ind length ih =>
    rcases hknown : m.position? pointer with - | position
    · by_cases hroot : pointer = []
      · rw [hroot, nearest?_nil, ← hroot, hknown, hroot]
        exact .missing (hroot ▸ hknown)
      · rw [nearest?_eq, hknown, Option.none_or]
        have hless := Pointer.length_enclosing_lt hroot
        exact .cut hknown hroot (ih _ (hlength ▸ hless) _ rfl)
    · rw [nearest?_of_position? hknown]
      exact .known hknown

/-- And it ends in one way only. -/
theorem eq_nearest?_of_search {found : Option Position} (h : m.Search pointer found) :
    found = m.nearest? pointer := by
  induction h with
  | known hknown => rw [nearest?_of_position? hknown]
  | missing hmissing => rw [nearest?_nil, hmissing]
  | cut hmissing _ _ ih => rw [nearest?_eq, hmissing, Option.none_or, ih]

/-- What is found is in the map. -/
theorem exists_position?_of_nearest? {position : Position}
    (h : m.nearest? pointer = some position) :
    ∃ p, m.position? p = some position := by
  obtain ⟨p, -, hp⟩ := List.exists_of_findSome?_eq_some h
  exact ⟨p, hp⟩

/-- Where the root is known, something is found. -/
theorem isSome_nearest? (h : (m.position? []).isSome = true) (pointer : Text) :
    (m.nearest? pointer).isSome = true := by
  have hsearch (found : Option Position) (hfound : m.Search pointer found) :
      found.isSome = true := by
    induction hfound with
    | known _ => rfl
    | missing hmissing =>
      rw [hmissing] at h
      cases h
    | cut _ _ _ ih => exact ih
  exact hsearch _ (search_nearest? m pointer)

/-! ## The longest start of tokens -/

/-- Tokens lead through these first ones to the last node on their way that the map has a position
for. -/
structure IsLongestKnown (m : Map) (tokens known : List Text) (position : Position) : Prop where
  start : known <+: tokens
  found : m.position? (Pointer.ofTokens known) = some position
  longest : ∀ other, other <+: tokens → (m.position? (Pointer.ofTokens other)).isSome = true →
    other.length ≤ known.length

theorem nearest?_ofTokens_append (m : Map) (tokens : List Text) (token : Text) :
    m.nearest? (Pointer.ofTokens (tokens ++ [token])) =
      (m.position? (Pointer.ofTokens (tokens ++ [token]))).or
        (m.nearest? (Pointer.ofTokens tokens)) := by
  rw [nearest?_eq, ← Pointer.join_ofTokens, Pointer.enclosing_join]

/-- One token more that is not known makes no difference. -/
theorem IsLongestKnown.append {tokens known : List Text} {position : Position}
    (h : m.IsLongestKnown tokens known position) {token : Text}
    (hmissing : m.position? (Pointer.ofTokens (tokens ++ [token])) = none) :
    m.IsLongestKnown (tokens ++ [token]) known position where
  start := h.start.trans (List.prefix_append _ _)
  found := h.found
  longest := by
    intro other hother hknown
    rcases List.prefix_concat_iff.mp hother with rfl | hother
    · rw [hmissing] at hknown
      cases hknown
    · exact h.longest other hother hknown

/-- Of the starts of tokens the longest that is known is found, and nothing if none is known. -/
theorem nearest?_ofTokens (m : Map) (tokens : List Text) :
    (∃ known position, m.nearest? (Pointer.ofTokens tokens) = some position ∧
      m.IsLongestKnown tokens known position) ∨
    m.nearest? (Pointer.ofTokens tokens) = none ∧
      ∀ known, known <+: tokens → m.position? (Pointer.ofTokens known) = none := by
  have hself {tokens : List Text} {position : Position}
      (h : m.position? (Pointer.ofTokens tokens) = some position) :
      m.IsLongestKnown tokens tokens position :=
    ⟨List.prefix_rfl, h, fun other hother _ ↦ hother.length_le⟩
  induction tokens using List.reverseRecOn with
  | nil =>
    rw [Pointer.ofTokens_nil, nearest?_nil]
    rcases hroot : m.position? [] with - | position
    · refine Or.inr ⟨rfl, fun known hknown ↦ ?_⟩
      rw [List.prefix_nil.mp hknown]
      exact hroot
    · exact Or.inl ⟨[], position, rfl, hself hroot⟩
  | append_singleton tokens token ih =>
    rw [nearest?_ofTokens_append]
    rcases hlast : m.position? (Pointer.ofTokens (tokens ++ [token])) with - | position
    · rw [Option.none_or]
      refine ih.imp ?_ ?_
      · rintro ⟨known, position, hfound, hknown⟩
        exact ⟨known, position, hfound, hknown.append hlast⟩
      · rintro ⟨hnone, hmissing⟩
        refine ⟨hnone, fun known hknown ↦ ?_⟩
        rcases List.prefix_concat_iff.mp hknown with rfl | hknown
        · exact hlast
        · exact hmissing known hknown
    · exact Or.inl ⟨_, position, rfl, hself hlast⟩

end Source.Map

/-! ## Source maps of trees -/

namespace Yaml.Node

/-- The source map of a tree knows its root, and so it has a position near every pointer. -/
theorem exists_place_of_nearest? (n : Node) (pointer : Text) :
    ∃ place : Place, n.sourceMap.nearest? pointer = some place.position := by
  have hroot : n.sourceMap.position? (Pointer.ofTokens []) = some n.place.position :=
    position?_sourceMap rfl
  have hknown : (n.sourceMap.position? []).isSome = true := Option.isSome_of_eq_some hroot
  obtain ⟨position, hposition⟩ := Option.isSome_iff_exists.mp
    (Source.Map.isSome_nearest? hknown pointer)
  obtain ⟨known, hlookup⟩ := Source.Map.exists_position?_of_nearest? hposition
  obtain ⟨seen, hseen, hmem⟩ := Source.Map.exists_seen_of_mem_ofList
    (Source.Map.mem_of_position? hlookup)
  cases hseen
  obtain ⟨tokens, target, -, htarget⟩ := mem_positions_iff.mp hmem
  exact ⟨target.place, by rw [hposition, (Prod.mk.inj htarget).2]⟩

end Yaml.Node

/-! ## Locating nodes -/

namespace Source.Map

/-- At the pointer of tokens the position of the longest start of the tokens that the map knows is
given, and none exactly if it knows no start of them. -/
theorem locate_ofTokens {m : Map} (hentries : ∀ e ∈ m, e.2 ≠ some {}) (file : Option Files.Path)
    (tokens : List Text) :
    ∃ position, m.locate (some (Pointer.ofTokens tokens)) file =
        ⟨file, some (Pointer.ofTokens tokens), position⟩ ∧
      (position = {} ↔ ∀ known, known <+: tokens → m.position? (Pointer.ofTokens known) = none) ∧
      (position ≠ {} → ∃ known, m.IsLongestKnown tokens known position) := by
  refine ⟨_, rfl, ?_⟩
  rw [Option.bind_some]
  rcases nearest?_ofTokens m tokens with ⟨known, position, hfound, hknown⟩ | ⟨hnone, hmissing⟩
  · rw [hfound, Option.getD_some]
    have hposition : position ≠ {} := fun h ↦
      hentries _ (mem_of_position? hknown.found) (congrArg some h)
    refine ⟨⟨fun h ↦ absurd h hposition, fun hmissing ↦ ?_⟩, fun _ ↦ ⟨known, hknown⟩⟩
    have hfound := hknown.found
    rw [hmissing known hknown.start] at hfound
    cases hfound
  · rw [hnone]
    exact ⟨⟨fun _ ↦ hmissing, fun _ ↦ rfl⟩, fun h ↦ absurd rfl h⟩

/-- In the map of a tree there is a line and a column for every pointer. -/
theorem exists_locate_sourceMap (n : Yaml.Node) (pointer : Text) (file : Option Files.Path) :
    ∃ line column, n.sourceMap.locate (some pointer) file =
      ⟨file, some pointer, ⟨some line, some column⟩⟩ := by
  obtain ⟨place, hplace⟩ := n.exists_place_of_nearest? pointer
  refine ⟨place.line + 1, place.column + 1, ?_⟩
  rw [locate, Option.bind_some, hplace]
  rfl

/-- The search for a node ends in one way, whatever text its pointer is, and the file and the
pointer are passed on as they are. At the pointer of tokens the location has the position of the
longest start of the tokens that the map has one for, and none exactly if it has one for no start of
them; what is empty in the map counts as none. In the map of a text with a document there is a line
and a column for every pointer. -/
theorem locate_longestKnown (m : Map) (file : Option Files.Path) :
    (∀ pointer, ∃ found, m.Search pointer found ∧
      (∀ other, m.Search pointer other → other = found) ∧
      m.locate (some pointer) file = ⟨file, some pointer, found.getD {}⟩) ∧
    ((∀ e ∈ m, e.2 ≠ some {}) → ∀ tokens, ∃ position,
      m.locate (some (Pointer.ofTokens tokens)) file =
        ⟨file, some (Pointer.ofTokens tokens), position⟩ ∧
      (position = {} ↔ ∀ known, known <+: tokens → m.position? (Pointer.ofTokens known) = none) ∧
      (position ≠ {} → ∃ known, m.IsLongestKnown tokens known position)) ∧
    ∀ text n, Yaml.rootOf? text = .ok (some n) → ∃ known, Yaml.sourceMap text = .ok known ∧
      ∀ pointer, ∃ line column,
        known.locate (some pointer) file = ⟨file, some pointer, ⟨some line, some column⟩⟩ := by
  refine ⟨fun pointer ↦ ?_, fun hentries ↦ locate_ofTokens hentries file, fun text n hroot ↦ ?_⟩
  · exact ⟨_, search_nearest? m pointer, fun _ ↦ eq_nearest?_of_search, rfl⟩
  · refine ⟨n.sourceMap, ?_, fun pointer ↦ exists_locate_sourceMap n pointer file⟩
    rw [Yaml.sourceMap, hroot]

/-! ## A token without characters, and one with a slash -/

/-- A map that has positions for the root and two nodes, and an empty one below one of these. -/
def doubledSlashMap : Map :=
  [("", some ⟨some 1, some 1⟩), ("/a//b~1c", some ⟨some 2, none⟩),
    ("/a/b", some ⟨some 3, some 3⟩), ("/a//b~1c/d", none)]

def smallText : Text := "a: 1"

set_option maxRecDepth 10000 in
theorem isSome_rootOf_smallText :
    (match Yaml.rootOf? smallText with
      | .ok root => root.isSome
      | .error _ => false) = true := by
  decide +kernel

theorem locate_doubledSlashMap :
    (∀ e ∈ doubledSlashMap, e.2 ≠ some {}) ∧
    (∃ position, doubledSlashMap.locate (some (Pointer.ofTokens ["a", "", "b/c", "d"])) none =
        ⟨none, some (Pointer.ofTokens ["a", "", "b/c", "d"]), position⟩ ∧
      position = ⟨some 2, none⟩ ∧
      ∃ known, doubledSlashMap.IsLongestKnown ["a", "", "b/c", "d"] known position) ∧
    ∃ n known, Yaml.rootOf? smallText = .ok (some n) ∧ Yaml.sourceMap smallText = .ok known ∧
      ∀ pointer, ∃ line column,
        known.locate (some pointer) none = ⟨none, some pointer, ⟨some line, some column⟩⟩ := by
  have hentries : ∀ e ∈ doubledSlashMap, e.2 ≠ some {} := by decide
  refine ⟨hentries, ?_, ?_⟩
  · obtain ⟨position, hlocation, -, hlongest⟩ :=
      (locate_longestKnown doubledSlashMap none).2.1 hentries ["a", "", "b/c", "d"]
    have hposition : position = ⟨some 2, none⟩ := by
      refine (congrArg Location.position hlocation).symm.trans ?_
      decide +kernel
    refine ⟨position, hlocation, hposition, hlongest ?_⟩
    rw [hposition]
    decide
  · have hsome := isSome_rootOf_smallText
    split at hsome
    next root hroot =>
      obtain ⟨n, rfl⟩ := Option.isSome_iff_exists.mp hsome
      obtain ⟨known, hknown⟩ := (locate_longestKnown doubledSlashMap none).2.2 smallText n hroot
      exact ⟨n, known, hroot, hknown⟩
    next => cases hsome

end Source.Map

end EntityGraph
