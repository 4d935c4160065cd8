import EntityGraph.Yaml.Failure

/-!
# Places in a text

A cursor is a place in a text together with the characters from there on. Lines and columns are
counted from zero. A line ends with a line feed, a carriage return or both, or with one of three
Unicode separators; a byte order mark takes no column.

The end of the text reads as the character NUL, which no document holds.
-/

namespace EntityGraph.Yaml

/-! ## Classes of characters -/

/-- The characters that end a line. -/
def isBreak (c : Char) : Bool :=
  c == '\n' || c == '\r' || c == '\x85' || c == '\u2028' || c == '\u2029'

def isBreakOrEnd (c : Char) : Bool := c == '\x00' || isBreak c

def isSpaceOrTab (c : Char) : Bool := c == ' ' || c == '\t'

/-- A space, the end of a line, or the end of the text. -/
def isSpaceOrEnd (c : Char) : Bool := c == ' ' || isBreakOrEnd c

/-- A space, a tab, the end of a line, or the end of the text. -/
def isGap (c : Char) : Bool := isSpaceOrTab c || isBreakOrEnd c

def isHexDigit (c : Char) : Bool := c.isDigit || ('a' ≤ c && c ≤ 'f') || ('A' ≤ c && c ≤ 'F')

/-- The characters of the names of anchors, handles and directives. -/
def isWordChar (c : Char) : Bool := c.isAlphanum || c == '-' || c == '_'

/-- The ranges of the characters that a document may hold. -/
def printableRanges : List (Nat × Nat) :=
  [(0x9, 0xA), (0xD, 0xD), (0x20, 0x7E), (0x85, 0x85), (0xA0, 0xD7FF), (0xE000, 0xFFFD),
    (0x10000, 0x10FFFF)]

def isPrintable (c : Char) : Bool := Text.inRanges printableRanges c.toNat

/-! ## Places -/

/-- A place in a text: the characters before it, its line and its column. -/
structure Place where
  index : Nat := 0
  line : Nat := 0
  column : Nat := 0
  deriving DecidableEq, Repr, Inhabited

/-- The place after a character, given the one that follows it. A carriage return before a line
feed ends no line by itself. -/
def Place.after (p : Place) (c next : Char) : Place :=
  if isBreak c && !(c == '\r' && next == '\n') then ⟨p.index + 1, p.line + 1, 0⟩
  else if c == '\uFEFF' then { p with index := p.index + 1 }
  else { p with index := p.index + 1, column := p.column + 1 }

/-! ## Cursors -/

/-- A place in a text and the characters from there on. -/
structure Cursor where
  rest : List Char
  place : Place := {}
  deriving Repr

namespace Cursor

/-- The character at the cursor. -/
def peek (c : Cursor) : Char := c.rest.headD '\x00'

/-- The character a few characters further on. -/
def peekAt (c : Cursor) (n : Nat) : Char := (c.rest.drop n).headD '\x00'

def column (c : Cursor) : Nat := c.place.column

/-- Moves over one character; at the end of the text the cursor stays. -/
def advance (c : Cursor) : Cursor :=
  match c.rest with
  | [] => c
  | x :: rest => ⟨rest, c.place.after x (rest.headD '\x00')⟩

/-- Moves over some characters. -/
def advanceBy : Nat → Cursor → Cursor
  | 0, c => c
  | n + 1, c => advanceBy n c.advance

/-- The characters of a class at the cursor, and the cursor after them. -/
def span (p : Char → Bool) (c : Cursor) : List Char × Cursor :=
  let run := c.rest.takeWhile p
  (run, c.advanceBy run.length)

/-- Moves over the characters of a class. -/
def skip (p : Char → Bool) (c : Cursor) : Cursor := (c.span p).2

/-- The end of a line at the cursor: a line feed stands for all of them but the two separators that
stand for themselves. No characters where no line ends. -/
def takeBreak (c : Cursor) : List Char × Cursor :=
  match c.rest with
  | '\r' :: '\n' :: _ => (['\n'], c.advanceBy 2)
  | x :: _ =>
    if x == '\u2028' || x == '\u2029' then ([x], c.advance)
    else if isBreak x then (['\n'], c.advance)
    else ([], c)
  | [] => ([], c)

/-- Whether three characters and a gap stand at the cursor. -/
def atMark (c : Cursor) (mark : List Char) : Bool :=
  mark.isPrefixOf c.rest && isGap (c.peekAt 3)

/-- Whether the mark of a document's start or end is at the cursor. -/
def atDocumentMark (c : Cursor) : Bool :=
  c.atMark ['-', '-', '-'] || c.atMark ['.', '.', '.']

/-- Moves over spaces and a comment to the end of the line, and over that; anything else there is a
failure. -/
def restOfLine (c : Cursor) : Except Failure Cursor :=
  let c := c.skip (· == ' ')
  let c := if c.peek == '#' then c.skip (!isBreakOrEnd ·) else c
  if isBreakOrEnd c.peek then .ok c.takeBreak.2 else .error .token

end Cursor

end EntityGraph.Yaml
