import EntityGraph.Text.CodePoint

/-!
# Texts

Texts as documents hold them: lists of code points. A fixed text of the library is written as a
`String` and stands for the text of its characters.
-/

namespace EntityGraph

/-- A list of code points. -/
abbrev Text := List CodePoint

namespace Text

/-- The text of some characters. -/
def ofChars (cs : List Char) : Text := cs.map .char

def ofString (s : String) : Text := ofChars s.toList

instance : Coe String Text := ⟨ofString⟩

/-- The characters of a text that holds no half of a pair. -/
def chars? : Text → Option (List Char)
  | [] => some []
  | .char c :: rest => (chars? rest).map (c :: ·)
  | .half _ :: _ => none

/-- The text as a string, if it holds no half of a pair. -/
def toString? (t : Text) : Option String := t.chars?.map String.ofList

/-- The text as it is written where only characters can be: a half of a pair becomes the replacement
character. -/
def toReadable (t : Text) : String :=
  String.ofList (t.map fun
    | .char c => c
    | .half _ => '\uFFFD')

/-- Texts one after the other, with another one between each two. -/
def joined (separator : Text) (ts : List Text) : Text := separator.intercalate ts

/-- The parts of a list between marks. -/
def partsBetween {α : Type} [DecidableEq α] (mark : α) : List α → List (List α)
  | [] => [[]]
  | x :: rest =>
    match partsBetween mark rest with
    | [] => []
    | part :: parts => if x = mark then [] :: part :: parts else (x :: part) :: parts

@[simp] theorem ofChars_inj {cs ds : List Char} : ofChars cs = ofChars ds ↔ cs = ds :=
  List.map_inj_right fun _ _ h ↦ CodePoint.char.inj h

@[simp] theorem ofString_inj {s t : String} : ofString s = ofString t ↔ s = t := by
  simp [ofString, String.toList_inj]

@[simp] theorem chars?_ofChars (cs : List Char) : chars? (ofChars cs) = some cs := by
  induction cs with
  | nil => rfl
  | cons c cs ih =>
    change (chars? (ofChars cs)).map (c :: ·) = some (c :: cs)
    simp [ih]

@[simp] theorem toString?_ofString (s : String) : toString? (ofString s) = some s := by
  simp [toString?, ofString]

end Text

end EntityGraph
