/-!
# Base 64

Bytes written with four characters for three bytes. Characters outside of the alphabet are passed
over. The text ends at its padding; without padding its characters have to come in fours.
-/

namespace EntityGraph.Base64

/-- The value of a character of the alphabet. -/
def digit? (c : Char) : Option Nat :=
  if c.isUpper then some (c.toNat - 'A'.toNat)
  else if c.isLower then some (c.toNat - 'a'.toNat + 26)
  else if c.isDigit then some (c.toNat - '0'.toNat + 52)
  else if c = '+' then some 62
  else if c = '/' then some 63
  else none

/-- The byte that ends with a digit, given the number of digits before it in its group and the last
of them. The first digit of a group ends none. -/
def byte? (position last digit : Nat) : Option UInt8 :=
  match position with
  | 1 => some (UInt8.ofNat (last * 4 + digit / 16))
  | 2 => some (UInt8.ofNat (last % 16 * 16 + digit / 4))
  | 3 => some (UInt8.ofNat (last % 4 * 64 + digit))
  | _ => none

/-- The bytes of the characters that follow `position` digits of a group, the last of them `last`,
and then `pads` signs of padding. -/
def decodeFrom (position last pads : Nat) : List Char → Option (List UInt8)
  | [] => if position = 0 then some [] else none
  | c :: rest =>
    if c = '=' then
      if 2 ≤ position ∧ 4 ≤ position + (pads + 1) then some []
      else decodeFrom position last (if 2 ≤ position then pads + 1 else pads) rest
    else
      match digit? c with
      | none => decodeFrom position last pads rest
      | some digit =>
        (decodeFrom ((position + 1) % 4) digit 0 rest).map ((byte? position last digit).toList ++ ·)

/-- The bytes of a text. -/
def decode? (cs : List Char) : Option (List UInt8) := decodeFrom 0 0 0 cs

end EntityGraph.Base64
