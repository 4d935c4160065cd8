import EntityGraph.Number.Integer
import EntityGraph.Table

/-!
# Reading JSON

JSON text as a document value. Mappings keep the order of their keys; a repeated key keeps its first
place and takes the last value. A number with a point or an exponent is a binary64 number, any other
a whole number of any size, and the words `NaN`, `Infinity` and `-Infinity` are read as well.

The reader works on the characters that remain. A failure is reported by how many remained where it
was found, from which its line and column follow.
-/

namespace EntityGraph.Json

/-- What is wrong with a text. -/
inductive Problem where
  | expectedValue
  | expectedName
  | expectedColon
  | expectedComma
  | unterminated
  | controlCharacter
  | badEscape
  | badCodeEscape
  | extraData
  | byteOrderMark
  /-- A whole number has more digits than it may have. -/
  | tooManyDigits (count : Nat)
  deriving DecidableEq, Repr

/-- Whether a text with the problem is no JSON. A number with too many digits would be. -/
def Problem.isSyntactic : Problem → Bool
  | .tooManyDigits _ => false
  | _ => true

def Problem.message : Problem → String
  | .expectedValue => "Expecting value"
  | .expectedName => "Expecting property name enclosed in double quotes"
  | .expectedColon => "Expecting ':' delimiter"
  | .expectedComma => "Expecting ',' delimiter"
  | .unterminated => "Unterminated string starting at"
  | .controlCharacter => "Invalid control character at"
  | .badEscape => "Invalid \\escape"
  | .badCodeEscape => "Invalid \\uXXXX escape"
  | .extraData => "Extra data"
  | .byteOrderMark => "Unexpected UTF-8 BOM (decode using utf-8-sig)"
  | .tooManyDigits count =>
    Integer.limitMessage ++ ": value has " ++ toString count ++ " digits" ++ Integer.limitAdvice

/-- A problem and the number of characters that remained where it was found. -/
structure Failure where
  problem : Problem
  remaining : Nat
  deriving DecidableEq, Repr

def fail {α : Type} (problem : Problem) (rest : List Char) : Except Failure α :=
  .error ⟨problem, rest.length⟩

/-- The blanks of JSON. -/
def isSpace (c : Char) : Bool := c == ' ' || c == '\t' || c == '\n' || c == '\r'

def skip (cs : List Char) : List Char := cs.dropWhile isSpace

/-! ## Texts -/

/-- The character of an escape of one letter. -/
def shortEscape? (c : Char) : Option Char :=
  match c with
  | '"' => some '"'
  | '\\' => some '\\'
  | '/' => some '/'
  | 'b' => some '\x08'
  | 'f' => some '\x0c'
  | 'n' => some '\n'
  | 'r' => some '\r'
  | 't' => some '\t'
  | _ => none

/-- The value of four hexadecimal digits. -/
def fourDigits? (cs : List Char) : Option Nat :=
  if cs.length = 4 then Integer.digits? 16 cs else none

/-- The code after a backslash and a `u`, and the characters after it. Two escapes that are the
halves of a pair are one character. -/
def readCode (afterU : List Char) : Except Failure (CodePoint × List Char) :=
  match fourDigits? (afterU.take 4) with
  | none => .error ⟨.badCodeEscape, afterU.length + 1⟩
  | some high =>
    let rest := afterU.drop 4
    if rest.isEmpty then .error ⟨.badCodeEscape, afterU.length + 1⟩
    else
      match CodePoint.isHighHalf high, rest with
      | true, '\\' :: 'u' :: more =>
        if more.length ≤ 4 then .ok (.ofCode high, rest)
        else
          match fourDigits? (more.take 4) with
          | none => .error ⟨.badCodeEscape, more.length + 1⟩
          | some low =>
            if CodePoint.isLowHalf low then .ok (.ofPair high low, more.drop 4)
            else .ok (.ofCode high, rest)
      | _, _ => .ok (.ofCode high, rest)

/-- The text up to the closing quote. `opened` is the number of characters that remained at
the opening quote; each step of the bound reads one character or one escape. -/
def readPoints (opened : Nat) : Nat → List Char → Except Failure (Text × List Char)
  | 0, _ => .error ⟨.unterminated, opened⟩
  | _ + 1, [] => .error ⟨.unterminated, opened⟩
  | _ + 1, ['\\'] => .error ⟨.unterminated, opened⟩
  | _ + 1, '"' :: rest => .ok ([], rest)
  | bound + 1, '\\' :: 'u' :: rest => do
    let (x, rest) ← readCode rest
    let (text, rest) ← readPoints opened bound rest
    return (x :: text, rest)
  | bound + 1, '\\' :: e :: rest =>
    match shortEscape? e with
    | none => .error ⟨.badEscape, rest.length + 2⟩
    | some c => do
      let (text, rest) ← readPoints opened bound rest
      return (.char c :: text, rest)
  | bound + 1, c :: rest =>
    if c.toNat < 0x20 then fail .controlCharacter (c :: rest)
    else do
      let (text, rest) ← readPoints opened bound rest
      return (.char c :: text, rest)

/-- A text, after its opening quote. -/
def readText (cs : List Char) : Except Failure (Text × List Char) :=
  readPoints (cs.length + 1) (cs.length + 1) cs

/-! ## Numbers -/

/-- The fraction of a number: a point with at least one digit after it. -/
def splitFraction (cs : List Char) : List Char × List Char :=
  match cs with
  | '.' :: rest =>
    let ds := rest.takeWhile Char.isDigit
    if ds.isEmpty then ([], cs) else ('.' :: ds, rest.drop ds.length)
  | _ => ([], cs)

/-- The exponent of a number: an `e`, a sign or none, and at least one digit. -/
def splitExponent (cs : List Char) : List Char × List Char :=
  match cs with
  | e :: rest =>
    if e = 'e' ∨ e = 'E' then
      let sign := rest.take 1 |>.filter fun c ↦ c = '+' ∨ c = '-'
      let body := rest.drop sign.length
      let ds := body.takeWhile Char.isDigit
      if ds.isEmpty then ([], cs) else (e :: sign ++ ds, body.drop ds.length)
    else ([], cs)
  | [] => ([], cs)

/-- A number without its sign: no zeros before the first digit. -/
def splitNumber (cs : List Char) : Option (List Char × List Char × List Char × List Char) :=
  let whole := match cs with
    | '0' :: _ => ['0']
    | _ => cs.takeWhile Char.isDigit
  if whole.isEmpty then none
  else
    let (fraction, rest) := splitFraction (cs.drop whole.length)
    let (exponent, rest) := splitExponent rest
    some (whole, fraction, exponent, rest)

/-- A number. -/
def readNumber (start : List Char) : Except Failure (Value × List Char) :=
  let (negative, cs) := match start with
    | '-' :: rest => (true, rest)
    | _ => (false, start)
  match splitNumber cs with
  | none => fail .expectedValue start
  | some (whole, fraction, exponent, rest) =>
    if fraction.isEmpty ∧ exponent.isEmpty then
      let n : Int := digitsValue whole
      if Integer.digitLimit < whole.length then fail (.tooManyDigits whole.length) start
      else .ok (.int (if negative then -n else n), rest)
    else
      match Decimal.read? (whole ++ fraction ++ exponent) with
      | none => fail .expectedValue start
      | some d => .ok (.float (d.toBinary64 negative), rest)

/-! ## Values -/

/-- The words that stand for values. -/
def words : List (List Char × Value) :=
  [("null".toList, .null), ("true".toList, .bool true), ("false".toList, .bool false),
    ("NaN".toList, .float (.nan 0)), ("Infinity".toList, .float (.infinite false)),
    ("-Infinity".toList, .float (.infinite true))]

/-- A word or a number. -/
def readScalar (cs : List Char) : Except Failure (Value × List Char) :=
  match words.find? fun w ↦ w.1.isPrefixOf cs with
  | some (w, v) => .ok (v, cs.drop w.length)
  | none => readNumber cs

mutual

/-- A value at the first character. The bound is for nesting and for items: a bracket takes two
steps of it, a comma one. -/
def readValue : Nat → List Char → Except Failure (Value × List Char)
  | 0, cs => fail .expectedValue cs
  | bound + 1, cs =>
    match cs with
    | '"' :: rest => do
      let (text, rest) ← readText rest
      return (.str text, rest)
    | '[' :: rest =>
      match skip rest with
      | ']' :: rest => .ok (.seq [], rest)
      | rest => do
        let (items, rest) ← readItems bound rest
        return (.seq items, rest)
    | '\x7b' :: rest =>
      match skip rest with
      | '\x7d' :: rest => .ok (.map [], rest)
      | rest => do
        let (entries, rest) ← readEntries bound rest
        return (.map (entries.foldl (fun t e ↦ Table.insert t e.1 e.2) []), rest)
    | cs => readScalar cs

/-- The items of a sequence up to its end. -/
def readItems : Nat → List Char → Except Failure (List Value × List Char)
  | 0, cs => fail .expectedValue cs
  | bound + 1, cs => do
    let (v, rest) ← readValue bound cs
    match skip rest with
    | ']' :: rest => return ([v], rest)
    | ',' :: rest => do
      let (items, rest) ← readItems bound (skip rest)
      return (v :: items, rest)
    | rest => fail .expectedComma rest

/-- The entries of a mapping up to its end. -/
def readEntries : Nat → List Char → Except Failure (List (Value × Value) × List Char)
  | 0, cs => fail .expectedName cs
  | bound + 1, cs =>
    match cs with
    | '"' :: rest => do
      let (name, rest) ← readText rest
      match skip rest with
      | ':' :: rest => do
        let (v, rest) ← readValue bound (skip rest)
        match skip rest with
        | '\x7d' :: rest => return ([(.str name, v)], rest)
        | ',' :: rest => do
          let (entries, rest) ← readEntries bound (skip rest)
          return ((.str name, v) :: entries, rest)
        | rest => fail .expectedComma rest
      | rest => fail .expectedColon rest
    | cs => fail .expectedName cs

end

/-! ## Texts as documents -/

/-- A problem and the index of the character where it was found. -/
structure Error where
  problem : Problem
  index : Nat
  line : Nat
  column : Nat
  deriving DecidableEq, Repr

/-- The place of a failure in the text. -/
def Failure.locate (text : List Char) (f : Failure) : Error :=
  let index := text.length - f.remaining
  let before := text.take index
  { problem := f.problem
    index
    line := before.count '\n' + 1
    column := (before.reverse.takeWhile (· ≠ '\n')).length + 1 }

def Error.message (e : Error) : String :=
  if e.problem.isSyntactic then
    e.problem.message ++ ": line " ++ toString e.line ++ " column " ++ toString e.column ++
      " (char " ++ toString e.index ++ ")"
  else e.problem.message

/-- The value of a whole text. -/
def readAll (text : List Char) : Except Failure Value :=
  match text with
  | '\uFEFF' :: _ => fail .byteOrderMark text
  | _ => do
    let (v, rest) ← readValue (2 * text.length + 2) (skip text)
    let rest := skip rest
    if rest.isEmpty then return v else fail .extraData rest

/-- Reads a document, or says what is wrong and where. -/
def read (text : String) : Except Error Value :=
  (readAll text.toList).mapError (·.locate text.toList)

end EntityGraph.Json
