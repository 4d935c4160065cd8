import EntityGraph.Pointer
import EntityGraph.Schema.Reference

/-!
# Pointers and tokens

The tokens on the way to a node can be read off its pointer: no written token holds a slash, so the
written tokens are the parts between the slashes, and the reader of the pointers in schemas takes
each of them back to the token itself.

A token is written code point by code point. Replacing first every tilde and then every slash in it
comes to the same, since what stands for a tilde holds no slash. In the other order it would not:
the tildes that stand for slashes would be replaced in their turn.
-/

namespace EntityGraph

/-- A text with another one in the place of every code point of one kind. -/
def Text.replacing (t : Text) (old : CodePoint) (new : Text) : Text :=
  t.flatMap fun x ↦ if x = old then new else [x]

namespace Pointer

/-! ## Written tokens -/

theorem escape_eq_replacing (token : Text) :
    escape token = (token.replacing (.char '~') "~0").replacing (.char '/') "~1" := by
  rw [escape, Text.replacing, Text.replacing, List.flatMap_assoc]
  refine congrArg (token.flatMap ·) (funext fun x ↦ ?_)
  rw [escapePoint]
  by_cases htilde : x = .char '~'
  · rw [if_pos htilde, if_pos htilde]
    rfl
  · rw [if_neg htilde, if_neg htilde, List.flatMap_singleton]
    rfl

/-- In the other order a slash and a tilde before a one are written alike. -/
example : (Text.replacing "/" (.char '/') "~1").replacing (.char '~') "~0" =
    (Text.replacing "~1" (.char '/') "~1").replacing (.char '~') "~0" := by
  decide

theorem keyOf_escape (token : Text) : Schema.Reference.keyOf (escape token) = token := by
  induction token with
  | nil => rfl
  | cons x token ih =>
    rw [escape, List.flatMap_cons, ← escape, escapePoint]
    by_cases htilde : x = .char '~'
    · rw [if_pos htilde, htilde]
      simp [Schema.Reference.keyOf, ih]
    · rw [if_neg htilde]
      by_cases hslash : x = .char '/'
      · rw [if_pos hslash, hslash]
        simp [Schema.Reference.keyOf, ih]
      · -- A code point that is written as itself starts no replacement.
        rw [if_neg hslash, List.singleton_append, Schema.Reference.keyOf.eq_3, ih]
        · exact fun _ h _ ↦ htilde h
        · exact fun _ h _ ↦ htilde h

theorem slash_notMem_escape (token : Text) : CodePoint.char '/' ∉ escape token := by
  rw [escape, List.mem_flatMap]
  rintro ⟨x, -, hx⟩
  rw [escapePoint] at hx
  split at hx
  next => simp at hx
  next =>
    split at hx
    next => simp at hx
    next hslash => exact hslash (List.mem_singleton.mp hx).symm

/-! ## Tokens of a pointer -/

theorem foldl_join (base : Text) (tokens : List Text) :
    tokens.foldl join base = base ++ ofTokens tokens := by
  rw [ofTokens]
  induction tokens generalizing base with
  | nil => rw [List.foldl_nil, List.foldl_nil, List.append_nil]
  | cons token tokens ih =>
    rw [List.foldl_cons, List.foldl_cons, ih, ih (join [] token), ← List.append_assoc]
    rfl

@[simp] theorem ofTokens_nil : ofTokens [] = [] := rfl

theorem ofTokens_cons (token : Text) (tokens : List Text) :
    ofTokens (token :: tokens) = .char '/' :: (escape token ++ ofTokens tokens) := by
  rw [ofTokens, List.foldl_cons, foldl_join]
  rfl

theorem join_ofTokens (tokens : List Text) (token : Text) :
    join (ofTokens tokens) token = ofTokens (tokens ++ [token]) := by
  rw [ofTokens, ofTokens, List.foldl_append]
  rfl

theorem join_append_ofTokens (base token : Text) (tokens : List Text) :
    join base token ++ ofTokens tokens = base ++ ofTokens (token :: tokens) := by
  rw [ofTokens_cons, join, List.append_assoc, List.cons_append]

/-- The tokens that a pointer is read as. -/
def toTokens (pointer : Text) : List Text :=
  ((pointer.splitOn (.char '/')).drop 1).map Schema.Reference.keyOf

/-- Between the slashes of a pointer stand its written tokens. -/
theorem splitOn_append_ofTokens (base : Text) (tokens : List Text) :
    (base ++ ofTokens tokens).splitOn (.char '/') =
      base.splitOn (.char '/') ++ tokens.map escape := by
  induction tokens generalizing base with
  | nil => rw [ofTokens_nil, List.append_nil, List.map_nil, List.append_nil]
  | cons token tokens ih =>
    rw [ofTokens_cons, List.splitOn_append_cons_self, ih,
      List.splitOn_eq_singleton (slash_notMem_escape token)]
    rfl

theorem splitOn_ofTokens (tokens : List Text) :
    (ofTokens tokens).splitOn (.char '/') = [] :: tokens.map escape := by
  rw [← List.nil_append (ofTokens tokens), splitOn_append_ofTokens, List.splitOn_nil,
    List.singleton_append]

theorem map_keyOf_escape (tokens : List Text) :
    (tokens.map escape).map Schema.Reference.keyOf = tokens := by
  rw [List.map_map, show Schema.Reference.keyOf ∘ escape = id from funext keyOf_escape, List.map_id]

theorem toTokens_ofTokens (tokens : List Text) : toTokens (ofTokens tokens) = tokens := by
  rw [toTokens, splitOn_ofTokens, List.drop_one, List.tail_cons, map_keyOf_escape]

/-- What goes on with a slash after the pointer of tokens is read as these and further ones. -/
theorem toTokens_ofTokens_append (tokens : List Text) (rest : Text) :
    toTokens (ofTokens tokens ++ .char '/' :: rest) =
      tokens ++ (rest.splitOn (.char '/')).map Schema.Reference.keyOf := by
  rw [toTokens, List.splitOn_append_cons_self, splitOn_ofTokens, List.cons_append, List.drop_one,
    List.tail_cons, List.map_append, map_keyOf_escape]

/-- Different tokens have different pointers. -/
theorem ofTokens_inj {tokens others : List Text} :
    ofTokens tokens = ofTokens others ↔ tokens = others := by
  constructor
  · intro h
    rw [← toTokens_ofTokens tokens, h, toTokens_ofTokens]
  · rintro rfl
    rfl

end Pointer

end EntityGraph
