import EntityGraph.Proofs.Schema.Location
import EntityGraph.Proofs.Source.Positions

/-!
# Pointers of issues and of nodes

Pointers are made in three ways: an issue about a node extends the pointer of the node around it, a
violation of the schema puts the tokens on its way one after the other, and the walk through a tree
takes down each node under the path on which it came to it. All three make the pointer of the
tokens.

The pointer tells the tokens, and the pointers around it tell their starts. So what was found on one
way can be looked for on another: the position of a violation is known exactly if its tokens lead to
a node.
-/

namespace EntityGraph

namespace Pointer

/-! ## Pointers within others -/

/-- A pointer is within another one if its tokens go on after those of the other one. -/
theorem isWithin_ofTokens_iff {tokens others : List Text} :
    IsWithin (ofTokens tokens) (ofTokens others) ↔ tokens <+: others := by
  constructor
  · rintro (hsame | ⟨rest, hrest⟩)
    · exact (ofTokens_inj.mp hsame) ▸ List.prefix_rfl
    · -- What stands after the slash is read as the tokens that the other pointer has not got.
      rw [List.append_assoc, List.singleton_append] at hrest
      rw [← toTokens_ofTokens others, ← hrest, toTokens_ofTokens_append]
      exact List.prefix_append _ _
  · rintro ⟨rest, rfl⟩
    rw [ofTokens, ofTokens, List.foldl_append]
    exact isWithin_foldl_join _ _

/-! ## Tokens one after the other -/

/-- The child of the root has no pointer of another kind. -/
theorem join_eq_ite (base token : Text) : join base token =
    if base = [] then .char '/' :: escape token else base ++ .char '/' :: escape token := by
  split
  next hroot => rw [hroot, join, List.nil_append]
  next => rw [join]

theorem ofTokens_eq_flatMap (tokens : List Text) : ofTokens tokens = tokens.flatMap (join []) := by
  induction tokens with
  | nil => rfl
  | cons token tokens ih =>
    rw [ofTokens_cons, ih]
    rfl

/-! ## Indices -/

theorem escape_of_notMem {token : Text} (htilde : .char '~' ∉ token) (hslash : .char '/' ∉ token) :
    escape token = token := by
  induction token with
  | nil => rfl
  | cons x token ih =>
    rw [List.mem_cons, not_or] at htilde hslash
    rw [escape, List.flatMap_cons, ← escape, ih htilde.2 hslash.2, escapePoint,
      if_neg (Ne.symm htilde.1), if_neg (Ne.symm hslash.1), List.singleton_append]

theorem notMem_toString {c : Char} (h : c.isDigit = false) (index : Nat) :
    .char c ∉ Text.ofString (toString index) := by
  rw [Text.ofString, Text.ofChars, List.mem_map]
  rintro ⟨d, hd, hc⟩
  rw [Nat.toString_eq_ofList_toDigits, String.toList_ofList] at hd
  have hdigit := Nat.isDigit_of_mem_toDigits (by decide) (by decide) hd
  rw [CodePoint.char.inj hc, h] at hdigit
  cases hdigit

/-- An index is written as it is. -/
theorem escape_toString (index : Nat) : escape (toString index) = toString index :=
  escape_of_notMem (notMem_toString rfl index) (notMem_toString rfl index)

end Pointer

namespace Yaml.Node

/-- The source map of a tree knows the pointer of tokens exactly if they lead to a node. -/
theorem isSome_lookup_sourceMap_iff {n : Node} {tokens : List Text} :
    (n.sourceMap.lookup (Pointer.ofTokens tokens)).isSome = true ↔
      ∃ target, n.Leads tokens target := by
  rw [sourceMap, Source.Map.lookup_ofList, Option.isSome_map, List.lookup_isSome_iff]
  constructor
  · rintro ⟨e, he, hpointer⟩
    obtain ⟨others, target, hleads, rfl⟩ := mem_positions_iff.mp (List.mem_reverse.mp he)
    rw [Pointer.ofTokens_inj.mp (eq_of_beq hpointer)]
    exact ⟨target, hleads⟩
  · rintro ⟨target, hleads⟩
    exact ⟨_, List.mem_reverse.mpr (hleads.mem_positions []), beq_self_eq_true _⟩

end Yaml.Node

/-! ## The ways in which pointers are made -/

namespace Pointer

/-- The pointer of tokens is the same in whichever way it is made, and it tells the tokens.

A token is written with its tildes replaced first and its slashes then, and the root is extended by
it as any other pointer is. Tokens with one pointer are the same, and one pointer is within another
exactly if its tokens go on after those of the other. Extending the root by one token after the
other gives what the tokens give if each extends the root by itself, one after the other, and that
is the pointer of a violation with these tokens. The walk through a tree takes down the nodes that
tokens lead to under the same pointers, with an index written as it is. Hence the source map of the
tree knows the pointer of a violation exactly if the tokens of the violation lead to a node. -/
theorem pointers_agree :
    (∀ token, escape token = (token.replacing (.char '~') "~0").replacing (.char '/') "~1") ∧
    (∀ base token, join base token =
      if base = [] then .char '/' :: escape token else base ++ .char '/' :: escape token) ∧
    (∀ tokens others, ofTokens tokens = ofTokens others ↔ tokens = others) ∧
    (∀ tokens others, IsWithin (ofTokens tokens) (ofTokens others) ↔ tokens <+: others) ∧
    (∀ tokens : List Text, tokens.foldl join [] = ofTokens tokens ∧
      tokens.flatMap (join []) = ofTokens tokens ∧
      tokens.foldl (fun path token ↦ path ++ .char '/' :: escape token) [] = ofTokens tokens) ∧
    (∀ x : Schema.Violation, x.issue.pointer = x.tokens.flatMap (join [])) ∧
    (∀ (n : Yaml.Node) (e : Text × Source.Position), e ∈ n.positions [] ↔
      ∃ tokens target, n.Leads tokens target ∧
        e = (tokens.foldl (fun path token ↦ path ++ .char '/' :: escape token) [],
          target.place.position)) ∧
    (∀ index : Nat, escape (toString index) = toString index) ∧
    ∀ (n : Yaml.Node) (x : Schema.Violation),
      (n.sourceMap.lookup x.issue.pointer).isSome = true ↔ ∃ target, n.Leads x.tokens target := by
  refine ⟨escape_eq_replacing, join_eq_ite, fun tokens others ↦ ?_, fun tokens others ↦ ?_,
    fun tokens ↦ ⟨rfl, ?_, rfl⟩, fun x ↦ ?_, fun n e ↦ ?_, escape_toString, fun n x ↦ ?_⟩
  · exact ofTokens_inj
  · exact isWithin_ofTokens_iff
  · exact (ofTokens_eq_flatMap tokens).symm
  · exact ofTokens_eq_flatMap x.tokens
  · exact Yaml.Node.mem_positions_iff
  · exact Yaml.Node.isSome_lookup_sourceMap_iff

end Pointer

end EntityGraph
