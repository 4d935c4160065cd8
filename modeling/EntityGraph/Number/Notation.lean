import EntityGraph.Number.Decimal

/-!
# Notations of whole numbers

Whole numbers written as measured numbers are: with digits after a point, with an exponent, or in
the shorter of both. A point without digits after it is left out unless it is asked for.
-/

namespace EntityGraph.Notation

/-- Digits around a point. -/
def pointed (whole fraction : List Char) (keepsPoint : Bool) : List Char :=
  if fraction.isEmpty && !keepsPoint then whole else whole ++ '.' :: fraction

/-- So many significant digits of a number, rounded half to even, and the exponent of the first. -/
def significant (n count : Nat) : List Char × Nat :=
  if n = 0 then (List.replicate count '0', 0)
  else
    let ds := decimalDigits n
    if ds.length ≤ count then (ds ++ List.replicate (count - ds.length) '0', ds.length - 1)
    else
      let rounded := decimalDigits (roundQuotient n (tenTo (ds.length - count)))
      -- Rounding up to the next power of ten makes a digit too many, and that digit is a zero.
      (rounded.take count, ds.length - 1 + (rounded.length - count))

/-- A number with so many digits after its point. -/
def fixed (n places : Nat) (keepsPoint : Bool) : List Char :=
  pointed (decimalDigits n) (List.replicate places '0') keepsPoint

/-- One digit before the point, so many after it, and an exponent. -/
def scientific (n places : Nat) (keepsPoint : Bool) : List Char :=
  let (ds, exponent) := significant n (places + 1)
  pointed (ds.take 1) (ds.drop 1) keepsPoint ++ Binary64.exponentText exponent

def dropLastZeros (ds : List Char) : List Char := (ds.reverse.dropWhile (· == '0')).reverse

/-- So many significant digits: positional if the number has no more digits than that, and with an
exponent otherwise. Zeros at the end of the fraction are left out unless the point is kept. -/
def general (n count : Nat) (keepsPoint : Bool) : List Char :=
  let (ds, exponent) := significant n (max count 1)
  let kept (fraction : List Char) := if keepsPoint then fraction else dropLastZeros fraction
  if exponent < max count 1 then
    pointed (ds.take (exponent + 1)) (kept (ds.drop (exponent + 1))) keepsPoint
  else pointed (ds.take 1) (kept (ds.drop 1)) keepsPoint ++ Binary64.exponentText exponent

end EntityGraph.Notation
