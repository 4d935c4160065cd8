import EntityGraph.Text.Basic
import EntityGraph.Text.Visible

/-!
# Quoted text

How a text is shown inside a message: between quotes, with an escape for the quote, the backslash
and every character that has no visible form. The quote is the apostrophe, unless the text holds an
apostrophe and no double quote.
-/

namespace EntityGraph.Text

/-- A number in base sixteen, with leading zeros up to a width. -/
def hex (width n : Nat) : List Char :=
  let ds := Nat.toDigits 16 n
  List.replicate (width - ds.length) '0' ++ ds

/-- The apostrophe, and the double quote for a text that holds an apostrophe and no double
quote. -/
def quoteFor (t : Text) : Char :=
  if t.contains (.char '\'') ∧ ¬ t.contains (.char '"') then '"' else '\''

/-- The escape of a code: two, four or eight hexadecimal digits. -/
def escapeCode (n : Nat) : List Char :=
  if n < 0x100 then '\\' :: 'x' :: hex 2 n
  else if n < 0x10000 then '\\' :: 'u' :: hex 4 n
  else '\\' :: 'U' :: hex 8 n

/-- One character between quotes. -/
def quoteChar (quote c : Char) : List Char :=
  if c = quote ∨ c = '\\' then ['\\', c]
  else if c = '\n' then ['\\', 'n']
  else if c = '\r' then ['\\', 'r']
  else if c = '\t' then ['\\', 't']
  else if isVisible c then [c]
  else escapeCode c.toNat

/-- One code point between quotes; a half of a pair is never visible. -/
def quotePoint (quote : Char) : CodePoint → List Char
  | .char c => quoteChar quote c
  | .half offset => escapeCode (CodePoint.half offset).code

/-- A text between quotes. -/
def quoted (t : Text) : Text :=
  let q := quoteFor t
  ofChars (q :: t.flatMap (quotePoint q) ++ [q])

/-- A text between quotes, with escapes for everything beyond ASCII. -/
def quotedAscii (t : Text) : Text :=
  (quoted t).flatMap fun x ↦ if x.code < 0x80 then [x] else ofChars (escapeCode x.code)

/-- One byte between quotes: a visible ASCII character stands for itself. -/
def quoteByte (quote : Char) (b : UInt8) : List Char :=
  if b.toNat < 0x7F then quoteChar quote (Char.ofNat b.toNat) else '\\' :: 'x' :: hex 2 b.toNat

/-- A byte string between quotes, after a `b`. -/
def quotedBytes (bs : List UInt8) : Text :=
  let q := quoteFor (ofChars (bs.map fun b ↦ Char.ofNat b.toNat))
  ofChars ('b' :: q :: bs.flatMap (quoteByte q) ++ [q])

end EntityGraph.Text
