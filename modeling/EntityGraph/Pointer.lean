import EntityGraph.Text.Basic

/-!
# Pointers

The text that designates a node of a document: the tokens on the way to it, each after a slash. In a
token a tilde is written `~0` and a slash `~1`, so that no written token holds a slash and the
tokens can be told from the text.
-/

namespace EntityGraph.Pointer

/-- One code point of a written token. -/
def escapePoint (x : CodePoint) : Text :=
  if x = .char '~' then [.char '~', .char '0']
  else if x = .char '/' then [.char '~', .char '1']
  else [x]

/-- A token as it is written. -/
def escape (token : Text) : Text := token.flatMap escapePoint

/-- The pointer to the child of that token. -/
def join (base token : Text) : Text := base ++ .char '/' :: escape token

/-- The pointer of tokens, from the root on. -/
def ofTokens (tokens : List Text) : Text := tokens.foldl join []

/-- The pointers that enclose one, the nearest first, all of them written backwards. Each is what
stands before a slash; the root is the last. -/
def enclosingBackwards : Text → List Text
  | [] => [[]]
  | x :: rest => if x = .char '/' then rest :: enclosingBackwards rest else enclosingBackwards rest

/-- A pointer and those that enclose it, the nearest first. -/
def withEnclosing (pointer : Text) : List Text :=
  pointer :: (enclosingBackwards pointer.reverse).map List.reverse

end EntityGraph.Pointer
