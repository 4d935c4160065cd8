import EntityGraph.Text.Basic

/-!
# The order of texts

Texts are ordered by their code points, and lists of texts text by text.
-/

namespace EntityGraph.Text

/-- The lexicographic order of lists of texts. -/
def listLe : List Text → List Text → Bool
  | [], _ => true
  | _ :: _, [] => false
  | a :: as, b :: bs => a < b || (a == b && listLe as bs)

end EntityGraph.Text
