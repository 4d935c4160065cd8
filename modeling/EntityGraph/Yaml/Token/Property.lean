import EntityGraph.Number.Integer
import EntityGraph.Text.Utf8
import EntityGraph.Yaml.Token

/-!
# Properties and directives as they are written

Reading anchors, aliases, tags, and the lines that come before a document.
-/

namespace EntityGraph.Yaml.Property

/-! ## Names -/

/-- The characters that may follow the name of an anchor. -/
def endsName (c : Char) : Bool :=
  isGap c || ['?', ':', ',', ']', '\x7d', '%', '@', '\x60'].contains c

/-- The name of an anchor or an alias, at its mark. -/
def readName (c : Cursor) : Except Failure (String × Cursor) :=
  let (name, c) := c.advance.span isWordChar
  if name.isEmpty || !endsName c.peek then .error .token else .ok (String.ofList name, c)

/-! ## Tags -/

/-- The characters of a tag. -/
def isTagChar (c : Char) : Bool := c.isAlphanum || "-;/?:@&=+$,_.!~*'()[]".toList.contains c

/-- Bytes written by their codes at the cursor, each after a percent sign. -/
def readBytes : Nat → Cursor → Except Failure (List UInt8 × Cursor)
  | 0, c => .ok ([], c)
  | bound + 1, c =>
    if c.peek == '%' then
      if isHexDigit (c.peekAt 1) && isHexDigit (c.peekAt 2) then do
        let digits := [c.peekAt 1, c.peekAt 2]
        let byte := UInt8.ofNat ((Integer.digits? 16 digits).getD 0)
        let (more, c) ← readBytes bound (c.advanceBy 3)
        return (byte :: more, c)
      else .error .token
    else .ok ([], c)

/-- The characters of a tag at the cursor. Each step of the bound reads some. -/
def readTagChars : Nat → Cursor → Except Failure (List Char × Cursor)
  | 0, c => .ok ([], c)
  | bound + 1, c =>
    if c.peek == '%' then do
      let (bytes, c) ← readBytes (c.rest.length + 1) c
      match Text.Utf8.decode bytes with
      | .error _ => throw .token
      | .ok text =>
        let (more, c) ← readTagChars bound c
        return (text ++ more, c)
    else if isTagChar c.peek then do
      let (run, c) := c.span isTagChar
      let (more, c) ← readTagChars bound c
      return (run ++ more, c)
    else .ok ([], c)

/-- The text of a tag at the cursor, of which there has to be some. -/
def readTagText (c : Cursor) : Except Failure (String × Cursor) := do
  let start := c.place.index
  let (text, c) ← readTagChars (c.rest.length + 1) c
  if c.place.index = start then throw .token
  return (String.ofList text, c)

/-- The handle of a tag: an exclamation mark, or a word between two. -/
def readHandle (c : Cursor) : Except Failure (String × Cursor) :=
  if c.peek != '!' then .error .token
  else
    let c := c.advance
    if c.peek == ' ' then .ok ("!", c)
    else
      let (word, c) := c.span isWordChar
      if c.peek == '!' then .ok (String.ofList ('!' :: word ++ ['!']), c.advance)
      else .error .token

/-- Whether another exclamation mark comes before the next gap. -/
def hasHandle (c : Cursor) : Bool :=
  (c.advance.rest.takeWhile (!isSpaceOrEnd ·)).contains '!'

/-- A tag at its exclamation mark: its handle, if it has one, and its suffix. -/
def readTag (c : Cursor) : Except Failure (Option String × String × Cursor) := do
  let (handle, suffix, c) ←
    if c.peekAt 1 == '<' then do
      let (suffix, c) ← readTagText (c.advanceBy 2)
      if c.peek != '>' then throw .token
      pure (none, suffix, c.advance)
    else if isGap (c.peekAt 1) then pure (none, "!", c.advance)
    else if hasHandle c then do
      let (handle, c) ← readHandle c
      let (suffix, c) ← readTagText c
      pure (some handle, suffix, c)
    else do
      let (suffix, c) ← readTagText c.advance
      pure (some "!", suffix, c)
  if !isSpaceOrEnd c.peek then throw .token
  return (handle, suffix, c)

/-! ## Directives -/

/-- A number of a version. -/
def readVersionNumber (c : Cursor) : Except Failure (Nat × Cursor) :=
  let (ds, c) := c.span Char.isDigit
  if ds.isEmpty then .error .token
  else if Integer.digitLimit < ds.length then .error (.scalar (.tooManyDigits ds.length))
  else .ok (digitsValue ds, c)

/-- The version that a directive asks for. -/
def readVersion (c : Cursor) : Except Failure (Directive × Cursor) := do
  let (major, c) ← readVersionNumber (c.skip (· == ' '))
  if c.peek != '.' then throw .token
  let (minor, c) ← readVersionNumber c.advance
  if !isSpaceOrEnd c.peek then throw .token
  return (.version major minor, c)

/-- The handle that a directive declares, and what it stands for. -/
def readHandleMeaning (c : Cursor) : Except Failure (Directive × Cursor) := do
  let (name, c) ← readHandle (c.skip (· == ' '))
  if c.peek != ' ' then throw .token
  let (meaning, c) ← readTagText (c.skip (· == ' '))
  if !isSpaceOrEnd c.peek then throw .token
  return (.handle name meaning, c)

/-- A directive at its percent sign: what it says, where it stops, and the cursor at the next line.
One with an unknown name says nothing. -/
def readDirective (c : Cursor) : Except Failure (Directive × Place × Cursor) := do
  let (name, c) := c.advance.span isWordChar
  if name.isEmpty || !isSpaceOrEnd c.peek then throw .token
  let (directive, c) ←
    if name = ['Y', 'A', 'M', 'L'] then readVersion c
    else if name = ['T', 'A', 'G'] then readHandleMeaning c
    else pure (.other, c.skip (!isBreakOrEnd ·))
  return (directive, c.place, ← c.restOfLine)

end EntityGraph.Yaml.Property
