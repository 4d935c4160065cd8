import EntityGraph.Number.Decimal
import EntityGraph.Text.DecimalDigit

/-!
# Reading whole numbers

Whole numbers in base two, eight, ten or sixteen: blanks at the ends, a sign, the mark of the base
(`0b`, `0o`, `0x`), and digits. The digits may be those of any script.

Between whole numbers and their texts in base ten there is a limit to the number of digits.
-/

namespace EntityGraph.Integer

/-- The most digits that the text of a whole number in base ten may have. -/
def digitLimit : Nat := 4300

/-- Whether the text of a whole number keeps to the limit. -/
def isWritable (n : Int) : Bool := n.natAbs < tenTo digitLimit

/-- What is said of a number that does not keep to the limit. -/
def limitMessage : String :=
  "Exceeds the limit (" ++ toString digitLimit ++ " digits) for integer string conversion"

/-- What is said about the limit itself. -/
def limitAdvice : String := "; use sys.set_int_max_str_digits() to increase the limit"

/-- The value of a digit of base sixteen or less. -/
def digit? (base : Nat) (c : Char) : Option Nat :=
  let value :=
    if c.isDigit then some (c.toNat - '0'.toNat)
    else if 'a' ≤ c ∧ c ≤ 'f' then some (c.toNat - 'a'.toNat + 10)
    else if 'A' ≤ c ∧ c ≤ 'F' then some (c.toNat - 'A'.toNat + 10)
    else none
  value.filter (· < base)

/-- The value of a list of digits that is not empty. -/
def digits? (base : Nat) : List Char → Option Nat
  | [] => none
  | cs => cs.foldlM (fun n c ↦ (digit? base c).map (base * n + ·)) 0

/-- The letter that marks a base after a zero. -/
def mark (base : Nat) : List Char :=
  match base with
  | 2 => ['b', 'B']
  | 8 => ['o', 'O']
  | 16 => ['x', 'X']
  | _ => []

/-- The digits after the mark of the base, if there is one. -/
def dropMark (base : Nat) : List Char → List Char
  | '0' :: m :: rest => if (mark base).contains m then rest else '0' :: m :: rest
  | cs => cs

/-- Splits off a sign: whether it is a minus, and the rest. -/
def splitSign : List Char → Bool × List Char
  | '-' :: rest => (true, rest)
  | '+' :: rest => (false, rest)
  | cs => (false, cs)

/-- Reads a whole number. -/
def read? (base : Nat) (t : Text) : Option Int :=
  let (negative, body) := splitSign t.numeral
  (digits? base (dropMark base body)).map fun n ↦ if negative then -(n : Int) else n

end EntityGraph.Integer
