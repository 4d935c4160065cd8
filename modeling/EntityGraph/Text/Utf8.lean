import EntityGraph.Text.Quoted

/-!
# UTF-8

Bytes as text. Bytes that are no text are told by the first place where no character can be read,
how many bytes were taken up there, and why the next does not fit.
-/

namespace EntityGraph.Text.Utf8

/-- Why bytes are no text. -/
inductive Problem where
  | start
  | continuation
  | ending
  deriving DecidableEq, Repr

/-- The bytes that are no character: the first of them, where it stands, and their number. -/
structure Error where
  problem : Problem
  byte : UInt8
  index : Nat
  count : Nat
  deriving DecidableEq, Repr

def Problem.message : Problem → String
  | .start => "invalid start byte"
  | .continuation => "invalid continuation byte"
  | .ending => "unexpected end of data"

def Error.message (e : Error) : String :=
  (if e.count = 1 then
      "'utf-8' codec can't decode byte 0x" ++ String.ofList (hex 2 e.byte.toNat) ++
        " in position " ++ toString e.index
    else
      "'utf-8' codec can't decode bytes in position " ++ toString e.index ++ "-" ++
        toString (e.index + e.count - 1)) ++
    ": " ++ e.problem.message

/-- Whether a byte goes on with a character. -/
def continues (b : UInt8) : Bool := 0x80 ≤ b && b < 0xC0

/-- Whether a byte can be the second after a first one: short forms, surrogates and what is out of
range are left out. -/
def continuesAfter (first second : UInt8) : Bool :=
  if first = 0xE0 then 0xA0 ≤ second && second < 0xC0
  else if first = 0xED then 0x80 ≤ second && second < 0xA0
  else if first = 0xF0 then 0x90 ≤ second && second < 0xC0
  else if first = 0xF4 then 0x80 ≤ second && second < 0x90
  else continues second

/-- The number of bytes of a character, by its first byte. -/
def width? (first : UInt8) : Option Nat :=
  if first < 0x80 then some 1
  else if 0xC2 ≤ first ∧ first < 0xE0 then some 2
  else if 0xE0 ≤ first ∧ first < 0xF0 then some 3
  else if 0xF0 ≤ first ∧ first < 0xF5 then some 4
  else none

/-- The character of a first byte's bits and of those that go on with it. -/
def charOf (bits : Nat) (more : List UInt8) : Char :=
  Char.ofNat (more.foldl (fun n b ↦ n * 0x40 + b.toNat % 0x40) bits)

/-- The characters of bytes from an index on. -/
def decodeFrom (index : Nat) : List UInt8 → Except Error (List Char)
  | [] => .ok []
  | first :: rest =>
    let fail {α : Type} (problem : Problem) (count : Nat) : Except Error α :=
      .error ⟨problem, first, index, count⟩
    match width? first with
    | none => fail .start 1
    | some 1 => do return charOf first.toNat [] :: (← decodeFrom (index + 1) rest)
    | some width =>
      match rest with
      | [] => fail .ending 1
      | second :: rest =>
        if !continuesAfter first second then fail .continuation 1
        else if width = 2 then do
          return charOf (first.toNat % 0x20) [second] :: (← decodeFrom (index + 2) rest)
        else
          match rest with
          | [] => fail .ending 2
          | third :: rest =>
            if !continues third then fail .continuation 2
            else if width = 3 then do
              return charOf (first.toNat % 0x10) [second, third] ::
                (← decodeFrom (index + 3) rest)
            else
              match rest with
              | [] => fail .ending 3
              | fourth :: rest =>
                if !continues fourth then fail .continuation 3
                else do
                  return charOf (first.toNat % 0x08) [second, third, fourth] ::
                    (← decodeFrom (index + 4) rest)

/-- The characters of bytes. -/
def decode (bytes : List UInt8) : Except Error (List Char) := decodeFrom 0 bytes

/-- The characters of bytes, with the replacement character where no character can be read. Each
step of the bound replaces one. -/
def decodeReplacing : Nat → List UInt8 → List Char
  | 0, _ => []
  | bound + 1, bytes =>
    match decode bytes with
    | .ok cs => cs
    | .error e =>
      ((decode (bytes.take e.index)).toOption.getD []) ++
        '\uFFFD' :: decodeReplacing bound (bytes.drop (e.index + e.count))

end EntityGraph.Text.Utf8

namespace EntityGraph.Text

/-- Every end of a line as a line feed: a carriage return, alone or before a line feed, becomes
one. -/
def unifyLineEnds : List Char → List Char
  | '\r' :: '\n' :: rest => '\n' :: unifyLineEnds rest
  | '\r' :: rest => '\n' :: unifyLineEnds rest
  | c :: rest => c :: unifyLineEnds rest
  | [] => []

end EntityGraph.Text
