import EntityGraph.Yaml.Token.Property
import EntityGraph.Yaml.Token.Scalar

/-!
# The tokens of a text

A text is read token by token. A node that turns out to be a key is only known as such at the colon
after it: until then the place is kept as a possible start of a key, and the tokens from there on
are held back. Such a place is given up at the end of its line or after 1024 characters; where the
indentation says that a key has to start, giving it up is a failure.
-/

namespace EntityGraph.Yaml

/-- A place where a key may have started. -/
structure KeyStart where
  /-- The number of tokens before it. -/
  number : Nat
  required : Bool
  place : Place
  deriving Repr

/-- How far a text has been read into tokens. -/
structure Lexer where
  cursor : Cursor
  /-- The number of flow collections around the cursor. -/
  depth : Nat := 0
  /-- The tokens that are held back, and the number of those that were passed on. -/
  held : List Token := []
  passed : Nat := 0
  /-- The column of the innermost block, and those of the blocks around it. -/
  indent : Int := -1
  outer : List Int := []
  keyAllowed : Bool := true
  /-- The possible starts of keys, by the depth of flow collections. -/
  keyStarts : List (Nat × KeyStart) := []
  ended : Bool := false
  deriving Repr

namespace Lexer

def inFlow (s : Lexer) : Bool := 0 < s.depth

def emit (s : Lexer) (lexeme : Lexeme) (start stop : Place) : Lexer :=
  { s with held := s.held ++ [⟨lexeme, start, stop⟩] }

/-- Emits a token that takes no characters. -/
def emitHere (s : Lexer) (lexeme : Lexeme) : Lexer :=
  s.emit lexeme s.cursor.place s.cursor.place

/-- Emits a token of some characters at the cursor. -/
def emitOver (s : Lexer) (length : Nat) (lexeme : Lexeme) : Lexer :=
  let c := s.cursor.advanceBy length
  { s.emit lexeme s.cursor.place c.place with cursor := c }

/-! ## Possible starts of keys -/

/-- Gives up the places that no longer can be starts of keys. -/
def dropStale (s : Lexer) : Except Failure Lexer :=
  let here := s.cursor.place
  let (fresh, stale) := s.keyStarts.partition fun k ↦
    k.2.place.line == here.line && here.index ≤ k.2.place.index + 1024
  if stale.any (·.2.required) then .error .token else .ok { s with keyStarts := fresh }

/-- Gives up the place of this depth. -/
def dropKeyStart (s : Lexer) : Except Failure Lexer :=
  let (here, others) := s.keyStarts.partition (·.1 == s.depth)
  if here.any (·.2.required) then .error .token else .ok { s with keyStarts := others }

/-- Marks the cursor as a possible start of a key, where keys are allowed. -/
def markKeyStart (s : Lexer) : Except Failure Lexer :=
  if s.keyAllowed then do
    let start : KeyStart :=
      { number := s.passed + s.held.length
        required := !s.inFlow && s.indent == s.cursor.column
        place := s.cursor.place }
    let s ← s.dropKeyStart
    return { s with keyStarts := s.keyStarts ++ [(s.depth, start)] }
  else .ok s

/-! ## Indentation -/

/-- How many blocks end at a column, the column of the block that stays, and those around it. -/
def endedBlocks (column indent : Int) : List Int → Nat × Int × List Int
  | [] => (0, indent, [])
  | next :: rest =>
    if column < indent then
      let (count, indent, outer) := endedBlocks column next rest
      (count + 1, indent, outer)
    else (0, indent, next :: rest)

/-- Ends the blocks that are indented beyond a column. -/
def endBlocks (s : Lexer) (column : Int) : Lexer :=
  if s.inFlow then s
  else
    let (count, indent, outer) := endedBlocks column s.indent s.outer
    let token : Token := ⟨.blockEnd, s.cursor.place, s.cursor.place⟩
    { s with held := s.held ++ List.replicate count token, indent, outer }

/-- Starts a block at a column beyond the innermost one, and says so. -/
def startBlock (s : Lexer) (column : Int) : Bool × Lexer :=
  if s.indent < column then (true, { s with indent := column, outer := s.indent :: s.outer })
  else (false, s)

/-- Starts a block at the cursor if it is indented beyond the innermost one. -/
def openBlock (s : Lexer) (lexeme : Lexeme) : Lexer :=
  match s.startBlock s.cursor.column with
  | (true, s) => s.emitHere lexeme
  | (false, s) => s

/-! ## Tokens -/

/-- Moves over spaces, comments and the ends of lines. Outside of flow collections the start of a
line is a place for a key. Each step of the bound reads a line. -/
def skipGaps : Nat → Lexer → Lexer
  | 0, s => s
  | bound + 1, s =>
    let c := s.cursor.skip (· == ' ')
    let c := if c.peek == '#' then c.skip (!isBreakOrEnd ·) else c
    if isBreak c.peek then
      skipGaps bound { s with cursor := c.takeBreak.2, keyAllowed := s.keyAllowed || !s.inFlow }
    else { s with cursor := c }

/-- The end of the text. -/
def readEnd (s : Lexer) : Except Failure Lexer := do
  let s ← (s.endBlocks (-1)).dropKeyStart
  return { s.emitHere .textEnd with keyAllowed := false, keyStarts := [], ended := true }

def readDirective (s : Lexer) : Except Failure Lexer := do
  let s ← (s.endBlocks (-1)).dropKeyStart
  let (directive, stop, c) ← Property.readDirective s.cursor
  return { s.emit (.directive directive) s.cursor.place stop with cursor := c, keyAllowed := false }

/-- The mark of a document's start or end. -/
def readDocumentMark (s : Lexer) (lexeme : Lexeme) : Except Failure Lexer := do
  let s ← (s.endBlocks (-1)).dropKeyStart
  return { s.emitOver 3 lexeme with keyAllowed := false }

/-- The start of a flow collection, which may itself be a key. -/
def readFlowStart (s : Lexer) (lexeme : Lexeme) : Except Failure Lexer := do
  let s ← s.markKeyStart
  return { s.emitOver 1 lexeme with depth := s.depth + 1, keyAllowed := true }

def readFlowEnd (s : Lexer) (lexeme : Lexeme) : Except Failure Lexer := do
  let s ← s.dropKeyStart
  return { s.emitOver 1 lexeme with depth := s.depth - 1, keyAllowed := false }

/-- The comma between the items of a flow collection. -/
def readSeparator (s : Lexer) : Except Failure Lexer := do
  let s ← s.dropKeyStart
  return { s.emitOver 1 .separator with keyAllowed := true }

/-- The dash of an item. -/
def readItem (s : Lexer) : Except Failure Lexer := do
  if !s.inFlow && !s.keyAllowed then throw .token
  let s := if s.inFlow then s else s.openBlock .blockSequence
  let s ← s.dropKeyStart
  return { s.emitOver 1 .item with keyAllowed := true }

/-- The question mark of a key. -/
def readKey (s : Lexer) : Except Failure Lexer := do
  if !s.inFlow && !s.keyAllowed then throw .token
  let s := if s.inFlow then s else s.openBlock .blockMapping
  let s ← s.dropKeyStart
  return { s.emitOver 1 .key with keyAllowed := !s.inFlow }

/-- Puts tokens before the one that a key starts with. -/
def insertAt (s : Lexer) (start : KeyStart) (lexemes : List Lexeme) : Lexer :=
  let position := start.number - s.passed
  let tokens := lexemes.map fun l ↦ (⟨l, start.place, start.place⟩ : Token)
  { s with held := s.held.take position ++ tokens ++ s.held.drop position }

/-- The colon after a key. If a key may have started at this depth, it has. -/
def readValue (s : Lexer) : Except Failure Lexer := do
  match s.keyStarts.find? (·.1 == s.depth) with
  | some (_, start) =>
    let s := { s with keyStarts := s.keyStarts.filter (·.1 != s.depth) }
    let (opened, s) := if s.inFlow then (false, s) else s.startBlock start.place.column
    let s := s.insertAt start (if opened then [.blockMapping, .key] else [.key])
    return { s.emitOver 1 .value with keyAllowed := false }
  | none =>
    if !s.inFlow && !s.keyAllowed then throw .token
    let s := if s.inFlow then s else s.openBlock .blockMapping
    let s ← s.dropKeyStart
    return { s.emitOver 1 .value with keyAllowed := !s.inFlow }

/-- An anchor or an alias. -/
def readName (s : Lexer) (lexeme : String → Lexeme) : Except Failure Lexer := do
  let s ← s.markKeyStart
  let (name, c) ← Property.readName s.cursor
  return { s.emit (lexeme name) s.cursor.place c.place with cursor := c, keyAllowed := false }

def readTag (s : Lexer) : Except Failure Lexer := do
  let s ← s.markKeyStart
  let (handle, suffix, c) ← Property.readTag s.cursor
  return { s.emit (.tag handle suffix) s.cursor.place c.place with
    cursor := c, keyAllowed := false }

def readBlockScalar (s : Lexer) : Except Failure Lexer := do
  let s ← s.dropKeyStart
  let (text, c) ← Scalar.readBlock s.indent s.cursor
  return { s.emit (.scalar text false) s.cursor.place c.place with cursor := c, keyAllowed := true }

def readQuoted (s : Lexer) : Except Failure Lexer := do
  let s ← s.markKeyStart
  let (text, c) ← Scalar.readQuoted s.cursor
  return { s.emit (.scalar text false) s.cursor.place c.place with
    cursor := c, keyAllowed := false }

/-- A plain scalar. After one that ends with its line a key may start. -/
def readPlain (s : Lexer) : Except Failure Lexer := do
  let s ← s.markKeyStart
  let read := Scalar.readPlain s.inFlow s.indent s.cursor
  return { s.emit (.scalar (.ofChars read.text) true) s.cursor.place read.stop with
    cursor := read.cursor, keyAllowed := read.lineEnded }

/-- The characters that cannot start a plain scalar, gaps apart. -/
def isIndicator (c : Char) : Bool :=
  ['-', '?', ':', ',', '[', ']', '\x7b', '\x7d', '#', '&', '*', '!', '|', '>', '\'', '"', '%', '@',
    '\x60'].contains c

/-- Whether a plain scalar starts at the cursor: some marks may start one if no gap follows. -/
def atPlain (s : Lexer) : Bool :=
  let x := s.cursor.peek
  (!isGap x && !isIndicator x) ||
    (!isGap (s.cursor.peekAt 1) && (x == '-' || (!s.inFlow && (x == '?' || x == ':'))))

/-- Whether a mark that is followed by a gap, or stands in a flow collection, is at the cursor. -/
def atMark (s : Lexer) (mark : Char) : Bool :=
  s.cursor.peek == mark && (s.inFlow || isGap (s.cursor.peekAt 1))

/-- Reads the token at the cursor. -/
def readToken (s : Lexer) : Except Failure Lexer :=
  let x := s.cursor.peek
  let lineStart := s.cursor.column == 0
  if x == '\x00' then s.readEnd
  else if x == '%' && lineStart then s.readDirective
  else if lineStart && s.cursor.atMark ['-', '-', '-'] then s.readDocumentMark .documentStart
  else if lineStart && s.cursor.atMark ['.', '.', '.'] then s.readDocumentMark .documentEnd
  else if x == '[' then s.readFlowStart .flowSequence
  else if x == '\x7b' then s.readFlowStart .flowMapping
  else if x == ']' then s.readFlowEnd .flowSequenceEnd
  else if x == '\x7d' then s.readFlowEnd .flowMappingEnd
  else if x == ',' then s.readSeparator
  else if x == '-' && isGap (s.cursor.peekAt 1) then s.readItem
  else if s.atMark '?' then s.readKey
  else if s.atMark ':' then s.readValue
  else if x == '*' then s.readName .alias
  else if x == '&' then s.readName .anchor
  else if x == '!' then s.readTag
  else if (x == '|' || x == '>') && !s.inFlow then s.readBlockScalar
  else if x == '\'' || x == '"' then s.readQuoted
  else if s.atPlain then s.readPlain
  else .error .token

/-- Moves to the next token, ends the blocks that it ends, and reads it. A byte order mark at the
start of the text is passed over. -/
def readNext (s : Lexer) : Except Failure Lexer := do
  let marked := s.cursor.place.index == 0 && s.cursor.peek == '\uFEFF'
  let s := if marked then { s with cursor := s.cursor.advance } else s
  let s ← (skipGaps (s.cursor.rest.length + 1) s).dropStale
  (s.endBlocks s.cursor.column).readToken

/-! ## All tokens -/

/-- Whether the next token has to be held back because a key may start there. -/
def holdsNext (s : Lexer) : Bool := s.keyStarts.any (·.2.number == s.passed)

/-- Passes tokens on as long as none has to be held back. -/
def release (s : Lexer) : List Token → List Token × Except Failure Lexer
  | [] => ([], .ok { s with held := [] })
  | t :: rest =>
    if s.ended then
      let (out, s) := release s rest
      (t :: out, s)
    else
      match s.dropStale with
      | .error e => ([], .error e)
      | .ok s =>
        if s.holdsNext then ([], .ok { s with held := t :: rest })
        else
          let (out, s) := release { s with passed := s.passed + 1 } rest
          (t :: out, s)

/-- The tokens from a state on, and the failure that ends them if one does. Each step of the bound
reads a token. -/
def run : Nat → Lexer → List Token × Option Failure
  | 0, s => (s.held, some .token)
  | bound + 1, s =>
    match s.readNext with
    | .error e => ([], some e)
    | .ok s =>
      match s.release s.held with
      | (out, .error e) => (out, some e)
      | (out, .ok s) =>
        if s.ended then (out, none)
        else
          let (more, failure) := run bound s
          (out ++ more, failure)

end Lexer

/-- The tokens of a text, and the failure that ends them if one does. A character that no document
may hold makes the whole text fail. -/
def tokens (text : List Char) : List Token × Option Failure :=
  if text.all isPrintable then Lexer.run (text.length + 1) { cursor := ⟨text, {}⟩ }
  else ([], some .character)

end EntityGraph.Yaml
