import EntityGraph.Number.Binary64

/-!
# Decimal numbers

Reading decimals into binary64 and writing binary64 as the shortest decimal that reads back.

A decimal is a whole number of digits at a power of ten. Reading rounds its exact ratio once.
Writing looks, for one digit, two digits and so on, at the two neighbours of the number on that
decimal grid, and stops at the first grid with a neighbour inside the interval of reals that round
to the number.
-/

namespace EntityGraph

/-- The number `digits * 10 ^ exponent`. -/
structure Decimal where
  digits : Nat
  exponent : Int
  deriving DecidableEq, Repr

/-- The powers of ten. -/
def tenTo (n : Nat) : Nat := Nat.pow 10 n

/-- The digits of a whole number in base ten. -/
def decimalDigits (n : Nat) : List Char := Nat.toDigits 10 n

/-- A whole number in base ten, after a minus sign if it is negative. -/
def signedDigits (n : Int) : List Char :=
  if n < 0 then '-' :: decimalDigits n.natAbs else decimalDigits n.natAbs

/-- The value of a list of decimal digits. -/
def digitsValue (ds : List Char) : Nat := ds.foldl (fun n d ↦ 10 * n + (d.toNat - 48)) 0

/-! ## Reading -/

namespace Decimal

/-- A decimal at or above `10 ^ 310` is out of range and one below `10 ^ (-330)` rounds to zero;
they are told by their number of digits, so that no huge power is formed. -/
def toBinary64 (negative : Bool) (d : Decimal) : Binary64 :=
  if d.digits = 0 then .finite negative 0
  else
    let size := d.exponent + (decimalDigits d.digits).length
    if 310 < size then .infinite negative
    else if size < -330 then .finite negative 0
    else if 0 ≤ d.exponent then .ofRatio negative (d.digits * tenTo d.exponent.toNat) 1
    else .ofRatio negative d.digits (tenTo (-d.exponent).toNat)

/-- The exponent part: an `e` of either case, a sign or none, and digits. It may be absent, and
then nothing else may follow. -/
def readExponent? : List Char → Option Int
  | [] => some 0
  | e :: rest =>
    if e = 'e' ∨ e = 'E' then
      match rest with
      | '-' :: ds => if ds ≠ [] ∧ ds.all Char.isDigit then some (-(digitsValue ds : Int)) else none
      | '+' :: ds => if ds ≠ [] ∧ ds.all Char.isDigit then some (digitsValue ds) else none
      | ds => if ds ≠ [] ∧ ds.all Char.isDigit then some (digitsValue ds) else none
    else none

/-- Reads digits with a point and an exponent, each optional. A digit has to stand on one side of
the point. -/
def read? (cs : List Char) : Option Decimal :=
  let whole := cs.takeWhile Char.isDigit
  let rest := cs.dropWhile Char.isDigit
  let (fraction, tail) := match rest with
    | '.' :: r => (r.takeWhile Char.isDigit, r.dropWhile Char.isDigit)
    | _ => ([], rest)
  if whole = [] ∧ fraction = [] then none
  else (readExponent? tail).map fun e ↦
    ⟨digitsValue (whole ++ fraction), e - fraction.length⟩

end Decimal

/-! ## The shortest decimal -/

namespace Binary64

/-- The exponent of the leading decimal digit of a positive number of units. -/
def leadingExponent (units : Nat) : Int :=
  (decimalDigits (units * tenTo 400 / twoTo unitShift)).length - 401

/-- The reals that round to a positive number of units, in quarters of a unit. The gap below a
power of two is half the gap above it. -/
def roundingInterval (units : Nat) : Nat × Nat :=
  let shift := excessBits units
  let gapBelow := if units = twoTo (52 + shift) ∧ 0 < shift then twoTo shift else twoTo (shift + 1)
  (4 * units - gapBelow, 4 * units + twoTo (shift + 1))

/-- The neighbour of the number on the grid of `count` significant digits that reads back, if there
is one: of two the nearer, of two equally near the even one. -/
def onGrid? (units count : Nat) : Option Decimal :=
  let exponent := leadingExponent units - (count - 1 : Nat)
  let up := tenTo (-exponent).toNat
  let cell := tenTo exponent.toNat * (4 * twoTo unitShift)
  let (low, high) := roundingInterval units
  let value := 4 * units * up
  let closed := units / twoTo (excessBits units) % 2 = 0
  let readsBack (c : Nat) : Bool :=
    if closed then low * up ≤ c * cell ∧ c * cell ≤ high * up
    else low * up < c * cell ∧ c * cell < high * up
  let below := value / cell
  let above := below + 1
  let lower : Decimal := ⟨below, exponent⟩
  -- The next power of ten has a digit too many for the grid, and that digit is a zero.
  let upper : Decimal :=
    if above = tenTo count then ⟨tenTo (count - 1), exponent + 1⟩ else ⟨above, exponent⟩
  match readsBack below, readsBack above with
  | false, false => none
  | true, false => some lower
  | false, true => some upper
  | true, true =>
    let toBelow := value - below * cell
    let toAbove := above * cell - value
    if toBelow < toAbove then some lower
    else if toAbove < toBelow then some upper
    else if below % 2 = 0 then some lower else some upper

/-- The shortest decimal that reads back as a positive number of units. Seventeen digits always
do. -/
def shortest (units : Nat) : Decimal :=
  ((List.range 17).findSome? fun i ↦ onGrid? units (i + 1)).getD ⟨0, 0⟩

/-! ## Text -/

/-- How numbers with a point are laid out: positional from `10 ^ (-4)` up to `10 ^ 16`, and outside
of that with an exponent of at least two digits. -/
structure Layout where
  positionalFrom : Int
  positionalBelow : Int
  exponentWidth : Nat

def layout : Layout := ⟨-4, 16, 2⟩

/-- The exponent part of a number: its sign and at least two digits. -/
def exponentText (e : Int) : List Char :=
  let ds := decimalDigits e.natAbs
  let zeros := List.replicate (layout.exponentWidth - ds.length) '0'
  'e' :: (if e < 0 then '-' else '+') :: (zeros ++ ds)

/-- The digits of a positive number, its point after the digit of exponent zero. -/
def magnitudeText (d : Decimal) : List Char :=
  let ds := decimalDigits d.digits
  let leading := d.exponent + ds.length - 1
  if layout.positionalFrom ≤ leading ∧ leading < layout.positionalBelow then
    if leading < 0 then
      ['0', '.'] ++ List.replicate (-leading - 1).toNat '0' ++ ds
    else
      let whole := (leading + 1).toNat
      if ds.length ≤ whole then ds ++ List.replicate (whole - ds.length) '0' ++ ['.', '0']
      else ds.take whole ++ '.' :: ds.drop whole
  else
    match ds with
    | [] => []
    | [c] => c :: exponentText leading
    | c :: rest => c :: '.' :: rest ++ exponentText leading

/-- The text of a binary64 number: the shortest decimal that reads back, or a word. -/
def text : Binary64 → String
  | .finite s u =>
    let body := if u = 0 then ['0', '.', '0'] else magnitudeText (shortest u)
    String.ofList (if s then '-' :: body else body)
  | .infinite s => if s then "-inf" else "inf"
  | .nan _ => "nan"

end Binary64

end EntityGraph
