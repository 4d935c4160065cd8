import EntityGraph.Number.Notation
import EntityGraph.Text.Case
import EntityGraph.Text.Quoted

/-!
# Slots of layouts

A slot is a place in a layout where a field of a record is written. After a percent sign it has the
name of the field in parentheses, then flags, a width, a precision after a point, and the letter of
a form. Not every form fits every content; where one does not, nothing can be written.
-/

namespace EntityGraph.Log

/-- What a record has under a name. -/
inductive Content where
  | text (t : Text)
  | number (n : Int)
  /-- Something that has no other form than a word. -/
  | word (s : String)
  deriving DecidableEq, Repr

/-- The forms in which contents are written. -/
inductive Form where
  | plain
  | quoted
  /-- In quotes, with escapes for everything beyond ASCII. -/
  | quotedAscii
  | decimal
  | octal
  | hexadecimal (inCapitals : Bool)
  | fixed
  | scientific (inCapitals : Bool)
  | general (inCapitals : Bool)
  /-- A number as the character of that code, or a text of one character. -/
  | character
  deriving DecidableEq, Repr

/-- A form by its letter. -/
def Form.ofLetter? (c : Char) : Option Form :=
  match c with
  | 's' => some .plain
  | 'r' => some .quoted
  | 'a' => some .quotedAscii
  | 'd' | 'i' | 'u' => some .decimal
  | 'o' => some .octal
  | 'x' => some (.hexadecimal false)
  | 'X' => some (.hexadecimal true)
  | 'f' | 'F' => some .fixed
  | 'e' => some (.scientific false)
  | 'E' => some (.scientific true)
  | 'g' => some (.general false)
  | 'G' => some (.general true)
  | 'c' => some .character
  | _ => none

/-- A slot as it is written. -/
structure Slot where
  key : Text
  flags : List Char := []
  width : Nat := 0
  precision : Option Nat := none
  form : Form
  deriving DecidableEq, Repr

namespace Slot

/-! ## Reading -/

/-- The first width that no line can have. -/
def widthLimit : Nat := twoTo 47

/-- The first precision that no number can have. -/
def precisionLimit : Nat := twoTo 31 - 3

/-- The text up to the parenthesis that closes so many open ones, and what comes after it. -/
def splitKey : Nat → Text → Option (Text × Text)
  | _, [] => none
  | 0, _ => none
  | depth + 1, .char ')' :: rest =>
    if depth = 0 then some ([], rest)
    else (splitKey depth rest).map fun s ↦ (.char ')' :: s.1, s.2)
  | depth + 1, x :: rest =>
    let deeper := if x = .char '(' then 1 else 0
    (splitKey (depth + 1 + deeper) rest).map fun s ↦ (x :: s.1, s.2)

/-- The name in parentheses. -/
def takeKey : Text → Option (Text × Text)
  | .char '(' :: rest => splitKey 1 rest
  | _ => none

/-- The characters of a class at the head of a text, and what comes after them. -/
def takeChars (p : Char → Bool) (t : Text) : List Char × Text :=
  (t.takeWhile (CodePoint.isCharOf p) |>.filterMap fun
      | .char c => some c
      | .half _ => none,
    t.dropWhile (CodePoint.isCharOf p))

/-- The letters that may stand before that of the form and say nothing. -/
def dropSize : Text → Text
  | .char 'h' :: rest | .char 'l' :: rest | .char 'L' :: rest => rest
  | t => t

def isFlag (c : Char) : Bool := ['-', '+', ' ', '#', '0'].contains c

/-- Reads a slot after its percent sign, and what comes after it. A width or a precision is given by
digits; a precision without any is zero. -/
def read? (t : Text) : Option (Slot × Text) := do
  let (key, t) ← takeKey t
  let (flags, t) := takeChars isFlag t
  let (width, t) := takeChars Char.isDigit t
  let (precision, t) := match t with
    | .char '.' :: rest =>
      let (ds, rest) := takeChars Char.isDigit rest
      (some (digitsValue ds), rest)
    | _ => (none, t)
  match dropSize t with
  | .char letter :: rest =>
    let form ← Form.ofLetter? letter
    let width := digitsValue width
    if width < widthLimit ∧ precision.getD 0 < precisionLimit then
      some (⟨key, flags, width, precision, form⟩, rest)
    else none
  | _ => none

/-! ## Writing -/

variable (slot : Slot)

def hasFlag (c : Char) : Bool := slot.flags.contains c

/-- Fills up to the width: behind if a flag asks for it, with zeros after the sign and the mark of a
number if another does, and otherwise with blanks in front. -/
def fill (isNumber : Bool) (start body : Text) : Text :=
  let gap := slot.width - (start ++ body).length
  if slot.hasFlag '-' then start ++ body ++ List.replicate gap (.char ' ')
  else if isNumber && slot.hasFlag '0' then start ++ List.replicate gap (.char '0') ++ body
  else List.replicate gap (.char ' ') ++ start ++ body

/-- A text, cut off at the precision. -/
def writeText (t : Text) : Text :=
  slot.fill false [] ((slot.precision.map (t.take ·)).getD t)

/-- A number, given its digits and what stands between its sign and them. -/
def writeNumber (isNegative : Bool) (mark digits : List Char) : Text :=
  let sign :=
    if isNegative then ['-']
    else if slot.hasFlag '+' then ['+'] else if slot.hasFlag ' ' then [' '] else []
  slot.fill true (.ofChars (sign ++ mark)) (.ofChars digits)

/-- A whole number in a base: at least as many digits as the precision, after the mark of the base
if a flag asks for it. -/
def writeWhole (base : Nat) (mark : List Char) (inCapitals : Bool) (n : Int) : Text :=
  let ds := Nat.toDigits base n.natAbs
  let ds := List.replicate (slot.precision.getD 0 - ds.length) '0' ++ ds
  let mark := if slot.hasFlag '#' then mark else []
  if inCapitals then slot.writeNumber (n < 0) (Text.upperLatin mark) (Text.upperLatin ds)
  else slot.writeNumber (n < 0) mark ds

/-- A number as one with a point, in a notation that takes its precision, which is six unless it is
given. A number beyond the range of those has none. -/
def writeMeasured (write : Nat → Nat → Bool → List Char) (inCapitals : Bool) (n : Int) :
    Option Text := do
  let m ← (Binary64.ofInt n).toInt?
  let ds := write m.natAbs (slot.precision.getD 6) (slot.hasFlag '#')
  return slot.writeNumber (m < 0) [] (if inCapitals then Text.upperLatin ds else ds)

/-- A number by the notation of the form of the slot, if it has one. -/
def writeForNumber (n : Int) : Option Text :=
  match slot.form with
  | .decimal => some (slot.writeWhole 10 [] false n)
  | .octal => some (slot.writeWhole 8 ['0', 'o'] false n)
  | .hexadecimal inCapitals => some (slot.writeWhole 16 ['0', 'x'] inCapitals n)
  | .fixed => slot.writeMeasured Notation.fixed false n
  | .scientific inCapitals => slot.writeMeasured Notation.scientific inCapitals n
  | .general inCapitals => slot.writeMeasured Notation.general inCapitals n
  | .character =>
    if 0 ≤ n ∧ n < 0x110000 then some (slot.fill false [] [.ofCode n.toNat]) else none
  | _ => none

/-- A content in the slot, if its form fits. -/
def write? (c : Content) : Option Text :=
  match slot.form, c with
  | .plain, .text t => some (slot.writeText t)
  | .quoted, .text t => some (slot.writeText t.quoted)
  | .quotedAscii, .text t => some (slot.writeText t.quotedAscii)
  | .character, .text [x] => some (slot.fill false [] [x])
  | .plain, .word s | .quoted, .word s | .quotedAscii, .word s => some (slot.writeText s)
  | .plain, .number n | .quoted, .number n | .quotedAscii, .number n =>
    some (slot.writeText (.ofChars (signedDigits n)))
  | _, .number n => slot.writeForNumber n
  | _, _ => none

end Slot

end EntityGraph.Log
