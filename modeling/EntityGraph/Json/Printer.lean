import EntityGraph.Text.Quoted
import EntityGraph.Value.Basic

/-!
# Writing JSON

JSON text in ASCII: what is not is written by its code in UTF-16. `Json.compact` writes one line,
`Json.pretty` one line for each item with an indentation of two blanks. Only values that JSON has
are written as themselves; the others have no place in a report and are written as null.
-/

namespace EntityGraph.Json

/-- The escape of one unit of UTF-16. -/
def unitEscape (n : Nat) : List Char := '\\' :: 'u' :: Text.hex 4 n

/-- One character of a text. -/
def writeChar (c : Char) : List Char :=
  if c = '"' ∨ c = '\\' then ['\\', c]
  else if c = '\n' then ['\\', 'n']
  else if c = '\r' then ['\\', 'r']
  else if c = '\t' then ['\\', 't']
  else if c = '\x08' then ['\\', 'b']
  else if c = '\x0c' then ['\\', 'f']
  else if ' ' ≤ c ∧ c ≤ '~' then [c]
  else
    let n := c.toNat
    if n < 0x10000 then unitEscape n
    else
      let m := n - 0x10000
      unitEscape (CodePoint.firstHalf + m / 0x400) ++
        unitEscape (CodePoint.firstLowHalf + m % 0x400)

/-- One code point of a text. -/
def writePoint : CodePoint → List Char
  | .char c => writeChar c
  | .half offset => unitEscape (CodePoint.half offset).code

/-- A text in quotes. -/
def writeText (t : Text) : String :=
  String.ofList ('"' :: t.flatMap writePoint ++ ['"'])

/-- A value that has no parts. -/
def writeScalar : Value → String
  | .bool b => if b then "true" else "false"
  | .int n => String.ofList (signedDigits n)
  | .float (.nan _) => "NaN"
  | .float (.infinite s) => if s then "-Infinity" else "Infinity"
  | .float x => x.text
  | .str t => writeText t
  | _ => "null"

/-- The name of an entry. -/
def writeName (v : Value) : String :=
  match v with
  | .str t => writeText t
  | v => writeText (writeScalar v)

mutual

/-- A value on one line. -/
def compact : Value → String
  | .seq items => "[" ++ ", ".intercalate (compactItems items) ++ "]"
  | .map entries => "\x7b" ++ ", ".intercalate (compactEntries entries) ++ "\x7d"
  | v => writeScalar v

def compactItems : List Value → List String
  | [] => []
  | v :: rest => compact v :: compactItems rest

def compactEntries : List (Value × Value) → List String
  | [] => []
  | (k, v) :: rest => (writeName k ++ ": " ++ compact v) :: compactEntries rest

end

/-- The start of a line at a depth. -/
def lineStart (depth : Nat) : String := "\n" ++ String.ofList (List.replicate (2 * depth) ' ')

/-- Parts between brackets, each on a line of its own. -/
def block (depth : Nat) (left right : String) (parts : List String) : String :=
  if parts.isEmpty then left ++ right
  else
    left ++ lineStart (depth + 1) ++ ("," ++ lineStart (depth + 1)).intercalate parts ++
      lineStart depth ++ right

mutual

/-- A value at a depth of indentation. -/
def prettyAt (depth : Nat) : Value → String
  | .seq items => block depth "[" "]" (prettyItems (depth + 1) items)
  | .map entries => block depth "\x7b" "\x7d" (prettyEntries (depth + 1) entries)
  | v => writeScalar v

def prettyItems (depth : Nat) : List Value → List String
  | [] => []
  | v :: rest => prettyAt depth v :: prettyItems depth rest

def prettyEntries (depth : Nat) : List (Value × Value) → List String
  | [] => []
  | (k, v) :: rest => (writeName k ++ ": " ++ prettyAt depth v) :: prettyEntries depth rest

end

/-- A value over several lines. -/
def pretty (v : Value) : String := prettyAt 0 v

end EntityGraph.Json
