import EntityGraph.Text.Quoted

/-!
# Encodings of output

Which code points a stream can take. A text with one that it cannot take is refused as a whole, or
is written with an escape in the place of each, as the stream has it.
-/

namespace EntityGraph.Text

/-- The code points that a stream can take, with the name of their encoding and what is said of the
others. All of ASCII is among them. -/
structure Encoding where
  name : String
  reason : String
  has : CodePoint → Bool
  has_of_code_lt : ∀ x : CodePoint, x.code < 0x80 → has x = true

namespace Encoding

/-- The encoding that has every character, and no half of a pair. -/
def utf8 : Encoding where
  name := "utf-8"
  reason := "surrogates not allowed"
  has
    | .char _ => true
    | .half _ => false
  has_of_code_lt x h := by
    cases x with
    | char c => rfl
    | half offset => simp only [CodePoint.code, CodePoint.firstHalf] at h; omega

/-- Why a text is refused: the first code points in a row that an encoding does not have, where they
stand and how many they are. -/
structure Error where
  encoding : String
  reason : String
  first : CodePoint
  index : Nat
  count : Nat
  deriving DecidableEq, Repr

namespace Error

/-- The word that names the kind of error in a report. -/
def label : String := "UnicodeEncodeError"

def message (e : Error) : Text :=
  let place : Text :=
    if e.count = 1 then
      "character '" ++ ofChars (escapeCode e.first.code) ++ "' in position " ++ toString e.index
    else
      "characters in position " ++ toString e.index ++ "-" ++ toString (e.index + e.count - 1)
  "'" ++ e.encoding ++ "' codec can't encode " ++ place ++ ": " ++ e.reason

end Error

variable (e : Encoding)

/-- Whether an encoding has all that a text is made of. -/
def accepts (t : Text) : Bool := t.all e.has

/-- Why a text is refused, if it is. -/
def refusal? (t : Text) : Option Error :=
  match t.dropWhile e.has with
  | [] => none
  | x :: rest =>
    some {
      encoding := e.name
      reason := e.reason
      first := x
      index := (t.takeWhile e.has).length
      count := (rest.takeWhile (!e.has ·)).length + 1 }

/-- A text with an escape for each code point that an encoding does not have. -/
def escaped (t : Text) : Text :=
  t.flatMap fun x ↦ if e.has x then [x] else ofChars (escapeCode x.code)

end Encoding

end EntityGraph.Text
