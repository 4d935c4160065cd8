import EntityGraph.Yaml.Token

/-!
# Scalars as they are written

Reading the text of a scalar in its three ways of writing: between quotes, plain, and as a block.
The ends of lines inside a scalar are folded: one becomes a space, and of several the first is left
out. A block scalar after a bar keeps them.
-/

namespace EntityGraph.Yaml.Scalar

/-! ## Quoted scalars -/

/-- The character of an escape of one letter. -/
def escape? (c : Char) : Option Char :=
  match c with
  | '0' => some '\x00'
  | 'a' => some '\x07'
  | 'b' => some '\x08'
  | 't' => some '\t'
  | '\t' => some '\t'
  | 'n' => some '\n'
  | 'v' => some '\x0b'
  | 'f' => some '\x0c'
  | 'r' => some '\r'
  | 'e' => some '\x1b'
  | ' ' => some ' '
  | '"' => some '"'
  | '\\' => some '\\'
  | '/' => some '/'
  | 'N' => some '\x85'
  | '_' => some '\u00a0'
  | 'L' => some '\u2028'
  | 'P' => some '\u2029'
  | _ => none

/-- How many digits follow the letter of an escape by code. -/
def codeLength? (c : Char) : Option Nat :=
  match c with
  | 'x' => some 2
  | 'u' => some 4
  | 'U' => some 8
  | _ => none

/-- The value of hexadecimal digits. -/
def hexValue (ds : List Char) : Nat :=
  ds.foldl (fun n c ↦ 16 * n + (if c.isDigit then c.toNat - 48 else c.toLower.toNat - 87)) 0

/-- A code of some digits at the cursor. -/
def readCode (length : Nat) (c : Cursor) : Except Failure (Nat × Cursor) :=
  let ds := c.rest.take length
  if ds.length = length ∧ ds.all isHexDigit then .ok (hexValue ds, c.advanceBy length)
  else .error .token

/-- The code point of a code. -/
def decodeCode (code : Nat) : Except Failure CodePoint :=
  if 0x110000 ≤ code then .error (.escape code) else .ok (.ofCode code)

/-- The ends of lines at the cursor with the spaces and tabs between them; a mark of a document is a
failure there. Each step of the bound reads one. -/
def readFlowBreaks : Nat → Cursor → Except Failure (List Char × Cursor)
  | 0, c => .ok ([], c)
  | bound + 1, c =>
    if c.atDocumentMark then .error .token
    else
      let c := c.skip isSpaceOrTab
      if isBreak c.peek then do
        let (ends, c) := c.takeBreak
        let (more, c) ← readFlowBreaks bound c
        return (ends ++ more, c)
      else .ok ([], c)

/-- The first end of a line and those after it, folded. -/
def fold (first more : List Char) : List Char :=
  if first ≠ ['\n'] then first ++ more else if more.isEmpty then [' '] else more

/-- Spaces and tabs at the cursor, which stay unless a line ends after them. -/
def readFlowSpaces (bound : Nat) (c : Cursor) : Except Failure (List Char × Cursor) :=
  let (spaces, c) := c.span isSpaceOrTab
  if isBreak c.peek then do
    let (first, c) := c.takeBreak
    let (more, c) ← readFlowBreaks bound c
    return (fold first more, c)
  else .ok (spaces, c)

/-- An escape, after its backslash. The end of a line is left out, with the spaces and tabs that
start the next. -/
def readEscape (bound : Nat) (c : Cursor) : Except Failure (Text × Cursor) :=
  match escape? c.peek, codeLength? c.peek with
  | some x, _ => .ok ([.char x], c.advance)
  | none, some length => do
    let (code, c) ← readCode length c.advance
    return ([← decodeCode code], c)
  | none, none =>
    if isBreak c.peek then do
      let (ends, c) ← readFlowBreaks bound c.takeBreak.2
      return (.ofChars ends, c)
    else .error .token

/-- The text up to the closing quote. Each step of the bound reads at least one character. -/
def readQuotedText (double : Bool) : Nat → Cursor → Except Failure (Text × Cursor)
  | 0, _ => .error .token
  | bound + 1, c => do
    let x := c.peek
    if x == '\x00' then throw .token
    if !double && x == '\'' && c.peekAt 1 == '\'' then
      let (more, c) ← readQuotedText double bound (c.advanceBy 2)
      return (.char '\'' :: more, c)
    if x == (if double then '"' else '\'') then return ([], c.advance)
    let (part, c) ←
      if isSpaceOrTab x || isBreak x then do
        let (gap, c) ← readFlowSpaces bound c
        pure (Text.ofChars gap, c)
      else if double && x == '\\' then readEscape bound c.advance
      else pure ([.char x], c.advance)
    let (more, c) ← readQuotedText double bound c
    return (part ++ more, c)

/-- A scalar between quotes, at its opening quote. -/
def readQuoted (c : Cursor) : Except Failure (Text × Cursor) :=
  readQuotedText (c.peek == '"') (c.rest.length + 1) c.advance

/-! ## Plain scalars -/

/-- Whether a plain scalar ends at a character, given the one after it. In a flow collection the
marks of the collection end it as well. -/
def endsPlain (inFlow : Bool) (c next : Char) : Bool :=
  isGap c ||
    (c == ':' && (isGap next || (inFlow && [',', '[', ']', '\x7b', '\x7d'].contains next))) ||
    (inFlow && [',', '?', '[', ']', '\x7b', '\x7d'].contains c)

/-- The characters of a plain scalar at the head of a text, up to a gap or its end. -/
def plainRun (inFlow : Bool) : List Char → List Char
  | [] => []
  | c :: rest =>
    if endsPlain inFlow c (rest.headD '\x00') then [] else c :: plainRun inFlow rest

/-- What may stand between two parts of a plain scalar: the folded characters, whether a line ended,
and the cursor after it. -/
structure PlainGap where
  text : List Char
  lineEnded : Bool
  cursor : Cursor

/-- The ends of lines at the cursor with the spaces between them; none if a mark of a document comes
after one of them, where the cursor then stays. -/
def readPlainBreaks : Nat → Cursor → Option (List Char) × Cursor
  | 0, c => (some [], c)
  | bound + 1, c =>
    if c.peek == ' ' then readPlainBreaks bound c.advance
    else if isBreak c.peek then
      let (first, c) := c.takeBreak
      if c.atDocumentMark then (none, c)
      else
        let (more, c) := readPlainBreaks bound c
        (more.map (first ++ ·), c)
    else (some [], c)

/-- The gap at the cursor. -/
def readPlainGap (c : Cursor) : PlainGap :=
  let (spaces, c) := c.span (· == ' ')
  if isBreak c.peek then
    let (first, c) := c.takeBreak
    if c.atDocumentMark then ⟨[], true, c⟩
    else
      let (more, c) := readPlainBreaks (c.rest.length + 1) c
      ⟨(more.map (fold first)).getD [], true, c⟩
  else ⟨spaces, false, c⟩

/-- A plain scalar as it is read: its text, where it stops, whether a line ended after its last
part, and the cursor after it. -/
structure Plain where
  text : List Char
  stop : Place
  lineEnded : Bool
  cursor : Cursor

/-- Reads on with a plain scalar after a gap. A comment, the end of its block or what ends a plain
scalar stops it. Each step of the bound reads a part and the gap after it. -/
def readPlainParts (inFlow : Bool) (outer : Int) : Nat → PlainGap → Plain → Plain
  | 0, _, read => read
  | bound + 1, gap, read =>
    let c := gap.cursor
    let run := if c.peek == '#' then [] else plainRun inFlow c.rest
    if run.isEmpty then { read with lineEnded := gap.lineEnded, cursor := c }
    else
      let c := c.advanceBy run.length
      let next := readPlainGap c
      let read := ⟨read.text ++ gap.text ++ run, c.place, next.lineEnded, next.cursor⟩
      if next.text.isEmpty || next.cursor.peek == '#' ||
          (!inFlow && (next.cursor.column : Int) ≤ outer) then read
      else readPlainParts inFlow outer bound next read

/-- A plain scalar at the cursor, in a block that is indented as far as given. -/
def readPlain (inFlow : Bool) (outer : Int) (c : Cursor) : Plain :=
  readPlainParts inFlow outer (c.rest.length + 1) ⟨[], false, c⟩ ⟨[], c.place, false, c⟩

/-! ## Block scalars -/

/-- What becomes of the ends of lines at the end of a block scalar. -/
inductive Chomping where
  | strip | clip | keep
  deriving DecidableEq, Repr

/-- The sign of a block scalar's head that is about its end, if it is there. -/
def readChomping (c : Cursor) : Option Chomping × Cursor :=
  match c.peek with
  | '+' => (some .keep, c.advance)
  | '-' => (some .strip, c.advance)
  | _ => (none, c)

/-- The digit of a block scalar's head that gives its indentation, if it is there; zero gives
none. -/
def readIndentation (c : Cursor) : Except Failure (Option Nat × Cursor) :=
  let x := c.peek
  if x == '0' then .error .token
  else if x.isDigit then .ok (some (x.toNat - '0'.toNat), c.advance)
  else .ok (none, c)

/-- The head of a block scalar: its sign and its digit in either order. -/
def readBlockHead (c : Cursor) : Except Failure (Chomping × Option Nat × Cursor) := do
  let (before, c) := readChomping c
  let (digit, c) ← readIndentation c
  let (after, c) := if before.isNone && digit.isSome then readChomping c else (none, c)
  if !isSpaceOrEnd c.peek then throw .token
  let c ← c.restOfLine
  return ((before.or after).getD .clip, digit, c)

/-- The blank lines at the head of a block scalar, and its indentation as the most spaces seen. -/
def readBlockStart (widest : Nat) : Nat → Cursor → List Char × Nat × Cursor
  | 0, c => ([], widest, c)
  | bound + 1, c =>
    if c.peek == ' ' then
      let c := c.advance
      readBlockStart (max widest c.column) bound c
    else if isBreak c.peek then
      let (first, c) := c.takeBreak
      let (more, widest, c) := readBlockStart widest bound c
      (first ++ more, widest, c)
    else ([], widest, c)

/-- Moves over spaces up to a column. -/
def skipTo (column : Nat) (c : Cursor) : Cursor :=
  c.advanceBy (min (c.rest.takeWhile (· == ' ')).length (column - c.column))

/-- The blank lines at the cursor, and the cursor at the text after them. -/
def readBlockBreaks (indent : Nat) : Nat → Cursor → List Char × Cursor
  | 0, c => ([], skipTo indent c)
  | bound + 1, c =>
    let c := skipTo indent c
    if isBreak c.peek then
      let (first, c) := c.takeBreak
      let (more, c) := readBlockBreaks indent bound c
      (first ++ more, c)
    else ([], c)

/-- Whether a line of a block scalar starts at the cursor. -/
def atBlockLine (indent : Nat) (c : Cursor) : Bool := c.column == indent && c.peek != '\x00'

/-- The lines of a block scalar: their text, the end of the last line, and the blank lines after
it. A folded scalar keeps the ends around lines that start with a space or a tab. -/
def readBlockLines (folded : Bool) (indent : Nat) :
    Nat → Cursor → List Char × List Char × List Char × Cursor
  | 0, c => ([], [], [], c)
  | bound + 1, c =>
    let flush := !isSpaceOrTab c.peek
    let (line, c) := c.span (!isBreakOrEnd ·)
    let (first, c) := c.takeBreak
    let (blanks, c) := readBlockBreaks indent (c.rest.length + 1) c
    if atBlockLine indent c then
      let joint :=
        if folded && first == ['\n'] && flush && !isSpaceOrTab c.peek then
          if blanks.isEmpty then [' '] else blanks
        else first ++ blanks
      let (more, last, rest, c) := readBlockLines folded indent bound c
      (line ++ joint ++ more, last, rest, c)
    else (line, first, blanks, c)

/-- The end of a block scalar by its chomping. -/
def Chomping.close (chomping : Chomping) (last blanks : List Char) : List Char :=
  match chomping with
  | .strip => []
  | .clip => last
  | .keep => last ++ blanks

/-- A block scalar at its mark, in a block that is indented as far as given. -/
def readBlock (outer : Int) (c : Cursor) : Except Failure (Text × Cursor) := do
  let folded := c.peek == '>'
  let (chomping, digit, c) ← readBlockHead c.advance
  let least := (max (outer + 1) 1).toNat
  let bound := c.rest.length + 1
  let (blanks, indent, c) := match digit with
    | some n =>
      let indent := least + n - 1
      let (blanks, c) := readBlockBreaks indent bound c
      (blanks, indent, c)
    | none =>
      let (blanks, widest, c) := readBlockStart 0 bound c
      (blanks, max least widest, c)
  if atBlockLine indent c then
    let (text, last, rest, c) := readBlockLines folded indent bound c
    return (.ofChars (blanks ++ text ++ chomping.close last rest), c)
  else return (.ofChars (chomping.close [] blanks), c)

end EntityGraph.Yaml.Scalar
