/-!
# Code points

What texts are made of. The codes from `0xD800` up to `0xDFFF` are no characters: two of them make a
pair, which stands for a character beyond the first plane. Yet an escape may ask for one of them
alone, and a text then holds that half of a pair.
-/

namespace EntityGraph

/-- A character, or a half of a pair by itself, given by its distance from the first half. -/
inductive CodePoint where
  | char (c : Char)
  | half (offset : Fin 0x800)
  deriving DecidableEq, Repr, Inhabited

namespace CodePoint

instance : Coe Char CodePoint := ⟨.char⟩

/-- The code of the first half. -/
def firstHalf : Nat := 0xD800

/-- The code of the first half that comes second in its pair. -/
def firstLowHalf : Nat := 0xDC00

/-- The first code that is no half any more. -/
def halvesEnd : Nat := 0xE000

/-- Whether a code is that of a half that comes first in its pair. -/
def isHighHalf (n : Nat) : Bool := firstHalf ≤ n && n < firstLowHalf

/-- Whether a code is that of a half that comes second in its pair. -/
def isLowHalf (n : Nat) : Bool := firstLowHalf ≤ n && n < halvesEnd

def code : CodePoint → Nat
  | .char c => c.toNat
  | .half offset => firstHalf + offset

/-- The code point of a code. A code beyond the last is read as NUL. -/
def ofCode (n : Nat) : CodePoint :=
  if h : firstHalf ≤ n ∧ n < halvesEnd then
    .half ⟨n - firstHalf, by simp only [firstHalf, halvesEnd] at h ⊢; omega⟩
  else .char (Char.ofNat n)

/-- The character of a pair. -/
def ofPair (high low : Nat) : CodePoint :=
  .char (Char.ofNat (0x10000 + (high - firstHalf) * 0x400 + (low - firstLowHalf)))

/-- Whether a code point is a character of a class. -/
def isCharOf (p : Char → Bool) : CodePoint → Bool
  | .char c => p c
  | .half _ => false

/-- Code points are ordered by their codes. -/
instance : LT CodePoint := ⟨fun a b ↦ a.code < b.code⟩

instance : DecidableLT CodePoint := fun a b ↦ inferInstanceAs (Decidable (a.code < b.code))

end CodePoint

end EntityGraph
