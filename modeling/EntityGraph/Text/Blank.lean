import EntityGraph.Text.Basic
import EntityGraph.Text.Letter

/-!
# Blank characters

The characters that count as blank at the ends of a text: those of the Unicode property
`White_Space` and the four information separators.
-/

namespace EntityGraph.Text

/-- The ranges of blank characters. -/
def blankRanges : List (Nat × Nat) :=
  [(0x9, 0xD), (0x1C, 0x20), (0x85, 0x85), (0xA0, 0xA0), (0x1680, 0x1680), (0x2000, 0x200A),
    (0x2028, 0x2029), (0x202F, 0x202F), (0x205F, 0x205F), (0x3000, 0x3000)]

def isBlank (c : Char) : Bool := inRanges blankRanges c.toNat

/-- A list without the elements of a class at its ends. -/
def trimmed {α : Type} (p : α → Bool) (xs : List α) : List α :=
  ((xs.dropWhile p).reverse.dropWhile p).reverse

/-- The text without the blanks at its ends. -/
def strip (t : Text) : Text := trimmed (CodePoint.isCharOf isBlank) t

end EntityGraph.Text
