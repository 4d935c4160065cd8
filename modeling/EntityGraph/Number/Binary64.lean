/-!
# Binary floating-point numbers

The numbers that a document may write with a point: the finite binary64 numbers, the two
infinities, and values that are not numbers. Every finite binary64 number is a whole multiple of
`2 ^ (-1074)`, so a finite number is kept as a sign and the count of these units. Comparison and
the arithmetic below are then exact integer arithmetic followed by one rounding.

A value that is not a number carries a label, as the payload bits do in the binary format: two of
them with one label are the same value, although neither equals anything as a number.
-/

namespace EntityGraph

/-- A binary64 number. -/
inductive Binary64 where
  /-- The number `units * 2 ^ (-1074)`, negated if `negative`; zero has both signs. -/
  | finite (negative : Bool) (units : Nat)
  | infinite (negative : Bool)
  | nan (label : Nat)
  deriving DecidableEq, Repr, Inhabited

/-! ## Rounding -/

/-- The powers of two. -/
def twoTo (n : Nat) : Nat := Nat.pow 2 n

/-- The whole number nearest to `num / den`; a tie goes to the even neighbour. -/
def roundQuotient (num den : Nat) : Nat :=
  let q := num / den
  let twice := 2 * (num % den)
  if twice < den then q
  else if den < twice then q + 1
  else if q % 2 = 0 then q else q + 1

namespace Binary64

/-- The exponent of the finest grid: one unit is `2 ^ (-1074)`. -/
def unitShift : Nat := 1074

/-- The number of significant bits of a finite number. -/
def precision : Nat := 53

/-- The units of the first power of two that is out of range, `2 ^ 1024`. -/
def limit : Nat := twoTo (1024 + unitShift)

/-- How many bits a number of units has beyond its significant ones. -/
def excessBits (units : Nat) : Nat := (units.log2 + 1) - precision

/-- The binary64 number nearest to `num / den` (negated if asked): it keeps 53 significant bits, a
tie goes to the even significand, and what rounds to `2 ^ 1024` or above is infinite. -/
def ofRatio (negative : Bool) (num den : Nat) : Binary64 :=
  let scaled := num * twoTo unitShift
  let shift := excessBits (scaled / den)
  let units := roundQuotient scaled (den * twoTo shift) * twoTo shift
  if units < limit then .finite negative units else .infinite negative

/-- The binary64 number nearest to a whole number. -/
def ofInt (n : Int) : Binary64 := ofRatio (n < 0) n.natAbs 1

def zero : Binary64 := .finite false 0

def negate : Binary64 → Binary64
  | .finite s u => .finite (!s) u
  | .infinite s => .infinite (!s)
  | .nan l => .nan l

/-! ## Extents

Comparison of numbers of both kinds goes through their place on the extended line, counted in
units. -/

/-- A place on the extended line of units. -/
inductive Extent where
  | least
  | at (units : Int)
  | greatest
  deriving DecidableEq, Repr

/-- The order of the extended line. -/
def Extent.le : Extent → Extent → Bool
  | .least, _ => true
  | _, .greatest => true
  | .at a, .at b => decide (a ≤ b)
  | _, _ => false

/-- The signed number of units. -/
def signed (negative : Bool) (units : Nat) : Int := if negative then -(units : Int) else units

/-- The place of a number on the extended line; what is not a number has none. -/
def extent? : Binary64 → Option Extent
  | .finite s u => some (.at (signed s u))
  | .infinite true => some .least
  | .infinite false => some .greatest
  | .nan _ => none

/-- The whole number that a number is, if it is one. -/
def toInt? : Binary64 → Option Int
  | .finite s u =>
    if u % twoTo unitShift = 0 then some (signed s (u / twoTo unitShift)) else none
  | _ => none

/-- Whether the number is a zero of either sign. -/
def isZero : Binary64 → Bool
  | .finite _ u => u == 0
  | _ => false

/-! ## Arithmetic

Sums and products, rounded once. They serve the base-sixty notation of documents. -/

/-- The rounded sum of two numbers. -/
def add : Binary64 → Binary64 → Binary64
  | .finite s u, .finite t v =>
    let sum := signed s u + signed t v
    if sum = 0 then .finite (s && t) 0 else ofRatio (sum < 0) sum.natAbs (twoTo unitShift)
  | .nan l, _ => .nan l
  | _, .nan l => .nan l
  | .infinite s, .infinite t => if s = t then .infinite s else .nan 0
  | .infinite s, .finite _ _ => .infinite s
  | .finite _ _, .infinite t => .infinite t

/-- The rounded product of two numbers. -/
def mul : Binary64 → Binary64 → Binary64
  | .finite s u, .finite t v => ofRatio (s != t) (u * v) (twoTo (2 * unitShift))
  | .nan l, _ => .nan l
  | _, .nan l => .nan l
  | .infinite s, .finite t v => if v = 0 then .nan 0 else .infinite (s != t)
  | .finite s u, .infinite t => if u = 0 then .nan 0 else .infinite (s != t)
  | .infinite s, .infinite t => .infinite (s != t)

end Binary64

/-! ## Numbers of both kinds -/

/-- A whole number or a binary64 number, as documents hold them. -/
inductive Number where
  | int (n : Int)
  | float (x : Binary64)
  deriving DecidableEq, Repr

namespace Number

/-- The place of a number on the extended line of units. Whole numbers are placed exactly, however
large. -/
def extent? : Number → Option Binary64.Extent
  | .int n => some (.at (n * twoTo Binary64.unitShift))
  | .float x => x.extent?

/-- Exact comparison of numbers of both kinds; what is not a number compares with nothing. -/
def le (a b : Number) : Bool :=
  match a.extent?, b.extent? with
  | some x, some y => x.le y
  | _, _ => false

/-- Exact equality of numbers of both kinds: `1` equals `1.0`, the two zeros are equal, and what is
not a number equals nothing. -/
def eq (a b : Number) : Bool :=
  match a.extent?, b.extent? with
  | some x, some y => x == y
  | _, _ => false

/-- Equality as members of a container: a value that is not a number is the same as itself. -/
def same (a b : Number) : Bool := a.eq b || a == b

end Number

end EntityGraph
