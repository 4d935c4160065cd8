import EntityGraph.Yaml.Node
import EntityGraph.Yaml.Token.Stream

/-!
# The grammar of tokens

From the tokens of a text to its nodes. A text holds one document or none, after directives and
between its marks. Anchors name nodes for the aliases after them, each name once in a document.

Tokens are asked for one at a time, so that of a failure in the tokens and a failure of the grammar
the earlier one is met.
-/

namespace EntityGraph.Yaml.Grammar

/-! ## Asking for tokens -/

/-- What remains to be read, and what the anchors so far name. The node of an anchor is known once
it is complete. -/
structure State where
  tokens : List Token
  anchors : List (String × Option Node) := []

/-- What stays fixed in a document: the failure after the last token and the meanings of handles. -/
structure Context where
  ending : Failure
  handles : List (String × String)

/-- Reading nodes from tokens. -/
abbrev Reader (α : Type) := ReaderT Context (StateT State (Except Failure)) α

def fail {α : Type} (f : Failure) : Reader α := throw f

/-- The next token. -/
def peek : Reader Token := do
  match (← get).tokens with
  | t :: _ => return t
  | [] => fail (← read).ending

/-- Moves over the next token. -/
def advance : Reader Unit := modify fun s ↦ { s with tokens := s.tokens.drop 1 }

/-- Whether the next token is one of some lexemes. -/
def atAny (lexemes : List Lexeme) : Reader Bool := return lexemes.contains (← peek).lexeme

/-! ## Properties -/

/-- The anchor and the tag of a node, and where they start. -/
structure Properties where
  anchor : Option String := none
  tag : Option String := none
  start : Option Place := none

/-- The full name of a tag; a handle has to be declared. -/
def fullTag (handle : Option String) (suffix : String) : Reader String := do
  match handle with
  | none => return suffix
  | some h =>
    match (← read).handles.lookup h with
    | some meaning => return meaning ++ suffix
    | none => fail .grammar

/-- An anchor and a tag in either order, each at most once. -/
def properties : Reader Properties := do
  let first ← peek
  match first.lexeme with
  | .anchor name =>
    advance
    match (← peek).lexeme with
    | .tag handle suffix =>
      advance
      return ⟨some name, some (← fullTag handle suffix), some first.start⟩
    | _ => return ⟨some name, none, some first.start⟩
  | .tag handle suffix =>
    advance
    match (← peek).lexeme with
    | .anchor name =>
      advance
      return ⟨some name, some (← fullTag handle suffix), some first.start⟩
    | _ => return ⟨none, some (← fullTag handle suffix), some first.start⟩
  | _ => return {}

/-- Declares an anchor; its name may not be taken. -/
def declare (anchor : Option String) : Reader Unit := do
  if let some name := anchor then
    if ((← get).anchors.any (·.1 == name)) then fail .reference
    modify fun s ↦ { s with anchors := (name, none) :: s.anchors }

/-- Names a complete node by its anchor. -/
def name (anchor : Option String) (n : Node) : Reader Node := do
  if let some a := anchor then modify fun s ↦ { s with anchors := (a, some n) :: s.anchors }
  return n

/-- The node of an alias. -/
def resolve (anchor : String) : Reader Node := do
  match (← get).anchors.find? (·.1 == anchor) with
  | some (_, some n) => return n
  | _ => fail .reference

/-- The tag of a scalar: its own, or for a plain one the tag of its form. -/
def scalarTag (tag : Option String) (text : Text) (plain : Bool) : Tag :=
  match tag with
  | none => if plain then .ofForm text else .str
  | some uri => if uri = "!" then .ofForm text else .ofUri uri

/-- The tag of a collection: its own, or the usual one. -/
def collectionTag (tag : Option String) (usual : Tag) : Tag :=
  match tag with
  | none => usual
  | some uri => if uri = "!" then usual else .ofUri uri

/-! ## Nodes -/

mutual

/-- A node. Blocks are not allowed in flow collections, and a sequence may be without indentation
only as the value of a block mapping. Each step of the bound is a node or a part of a collection,
and no two of them in a row are without a token. -/
def node (bound : Nat) (inBlock flatSequence : Bool) : Reader Node := do
  match bound with
  | 0 => fail .grammar
  | bound + 1 =>
    if let .alias anchor := (← peek).lexeme then
      advance
      return ← resolve anchor
    let props ← properties
    let t ← peek
    let start := props.start.getD t.start
    match t.lexeme, inBlock, flatSequence with
    | .item, _, true =>
      declare props.anchor
      name props.anchor (.seq (collectionTag props.tag .seq) (← flatItems bound) start)
    | .scalar text plain, _, _ =>
      advance
      declare props.anchor
      name props.anchor (.scalar (scalarTag props.tag text plain) text start)
    | .flowSequence, _, _ =>
      declare props.anchor
      advance
      name props.anchor (.seq (collectionTag props.tag .seq) (← flowItems bound true) start)
    | .flowMapping, _, _ =>
      declare props.anchor
      advance
      name props.anchor (.map (collectionTag props.tag .map) (← flowEntries bound true) start)
    | .blockSequence, true, _ =>
      declare props.anchor
      advance
      name props.anchor (.seq (collectionTag props.tag .seq) (← blockItems bound) start)
    | .blockMapping, true, _ =>
      declare props.anchor
      advance
      name props.anchor (.map (collectionTag props.tag .map) (← blockEntries bound) start)
    | _, _, _ =>
      if props.start.isNone then fail .grammar
      declare props.anchor
      name props.anchor (.scalar (scalarTag props.tag [] true) [] start)

/-- A node, or what stands for it where one of some tokens follows instead. -/
def nodeUnless (bound : Nat) (ends : List Lexeme) (place : Place) (inBlock flatSequence : Bool) :
    Reader Node := do
  match bound with
  | 0 => fail .grammar
  | bound + 1 =>
    if ← atAny ends then return .absent place else node bound inBlock flatSequence

/-- The items of a block sequence. -/
def blockItems (bound : Nat) : Reader (List Node) := do
  match bound with
  | 0 => fail .grammar
  | bound + 1 =>
    let t ← peek
    match t.lexeme with
    | .item =>
      advance
      let n ← nodeUnless bound [.item, .blockEnd] t.stop true false
      return n :: (← blockItems bound)
    | .blockEnd =>
      advance
      return []
    | _ => fail .grammar

/-- The items of a sequence without indentation, which ends where no dash follows. -/
def flatItems (bound : Nat) : Reader (List Node) := do
  match bound with
  | 0 => fail .grammar
  | bound + 1 =>
    let t ← peek
    match t.lexeme with
    | .item =>
      advance
      let n ← nodeUnless bound [.item, .key, .value, .blockEnd] t.stop true false
      return n :: (← flatItems bound)
    | _ => return []

/-- The value of an entry after its key: what follows the colon, or nothing. -/
def entryValue (bound : Nat) (ends : List Lexeme) (inBlock : Bool) : Reader Node := do
  match bound with
  | 0 => fail .grammar
  | bound + 1 =>
    let t ← peek
    match t.lexeme with
    | .value =>
      advance
      nodeUnless bound ends t.stop inBlock inBlock
    | _ => return .absent t.start

/-- The entries of a block mapping. -/
def blockEntries (bound : Nat) : Reader (List (Node × Node)) := do
  match bound with
  | 0 => fail .grammar
  | bound + 1 =>
    let t ← peek
    match t.lexeme with
    | .key =>
      advance
      let ends : List Lexeme := [.key, .value, .blockEnd]
      let k ← nodeUnless bound ends t.stop true true
      let v ← entryValue bound ends true
      return (k, v) :: (← blockEntries bound)
    | .blockEnd =>
      advance
      return []
    | _ => fail .grammar

/-- The items of a flow sequence; between two of them stands a comma. An entry alone is a mapping
with that entry. -/
def flowItems (bound : Nat) (isFirst : Bool) : Reader (List Node) := do
  match bound with
  | 0 => fail .grammar
  | bound + 1 =>
    if (← peek).lexeme == .flowSequenceEnd then
      advance
      return []
    if !isFirst then
      if (← peek).lexeme == .separator then advance else fail .grammar
    let t ← peek
    match t.lexeme with
    | .key =>
      advance
      let ends : List Lexeme := [.separator, .flowSequenceEnd]
      let k ← nodeUnless bound (.value :: ends) t.stop false false
      let v ← entryValue bound ends false
      return .map .map [(k, v)] t.start :: (← flowItems bound false)
    | .flowSequenceEnd =>
      advance
      return []
    | _ =>
      let n ← node bound false false
      return n :: (← flowItems bound false)

/-- The entries of a flow mapping; between two of them stands a comma. -/
def flowEntries (bound : Nat) (isFirst : Bool) : Reader (List (Node × Node)) := do
  match bound with
  | 0 => fail .grammar
  | bound + 1 =>
    if (← peek).lexeme == .flowMappingEnd then
      advance
      return []
    if !isFirst then
      if (← peek).lexeme == .separator then advance else fail .grammar
    let t ← peek
    match t.lexeme with
    | .key =>
      advance
      let ends : List Lexeme := [.separator, .flowMappingEnd]
      let k ← nodeUnless bound (.value :: ends) t.stop false false
      let v ← entryValue bound ends false
      return (k, v) :: (← flowEntries bound false)
    | .flowMappingEnd =>
      advance
      return []
    | _ =>
      let k ← node bound false false
      let v : Node := .absent (← peek).start
      return (k, v) :: (← flowEntries bound false)

end

/-! ## Documents -/

/-- The handles that need no declaration. -/
def usualHandles : List (String × String) := [("!", "!"), ("!!", Tag.space)]

/-- The directives at the head of the tokens: whether a version was given, and the declared
handles. Neither may be given twice, and only versions of the first series are known. -/
def directives : List Token → Bool → List (String × String) →
    Except Failure (List (String × String) × List Token)
  | [], _, handles => .ok (handles, [])
  | t :: rest, hasVersion, handles =>
    match t.lexeme with
    | .directive (.version major _) =>
      if hasVersion ∨ major ≠ 1 then .error .grammar else directives rest true handles
    | .directive (.handle h meaning) =>
      if (handles.lookup h).isSome then .error .grammar
      else directives rest hasVersion ((h, meaning) :: handles)
    | .directive .other => directives rest hasVersion handles
    | _ => .ok (handles, t :: rest)

/-- The start of a document that is marked as such: its handles and the tokens after it. None if the
text ends. -/
def documentStart (ending : Failure) (tokens : List Token) :
    Except Failure (Option (List (String × String) × List Token)) := do
  match tokens.dropWhile (·.lexeme == .documentEnd) with
  | [] => throw ending
  | t :: rest =>
    if t.lexeme == .textEnd then return none
    let (handles, tokens) ← directives (t :: rest) false []
    match tokens with
    | [] => throw ending
    | t :: rest =>
      if t.lexeme == .documentStart then return some (handles ++ usualHandles, rest)
      throw .grammar

/-- The lexemes that come before a document with a mark, or instead of a document. -/
def isOutside : Lexeme → Bool
  | .directive _ | .documentStart | .textEnd => true
  | _ => false

/-- The root of a document whose start has been passed. Only after a mark may it be absent. -/
def root (bound : Nat) (mayBeAbsent : Bool) : Reader Node := do
  let t ← peek
  if mayBeAbsent && (isOutside t.lexeme || t.lexeme == .documentEnd) then return .absent t.start
  node bound true false

/-- The root of the only document of the tokens, if there is one. -/
def document (tokens : List Token) (ending : Failure) : Except Failure (Option Node) := do
  let isMarked ← match tokens with
    | [] => throw ending
    | t :: _ => pure (isOutside t.lexeme)
  let start ← if isMarked then documentStart ending tokens else pure (some (usualHandles, tokens))
  match start with
  | none => return none
  | some (handles, tokens) =>
    let (n, s) ← ((root (4 * tokens.length + 8) isMarked).run ⟨ending, handles⟩).run ⟨tokens, []⟩
    let rest ← match s.tokens with
      | [] => throw ending
      | t :: rest => pure (if t.lexeme == .documentEnd then rest else t :: rest)
    match ← documentStart ending rest with
    | none => return some n
    | some _ => throw .reference

end EntityGraph.Yaml.Grammar

namespace EntityGraph.Yaml

/-- The root of the document that a text holds, if it holds one. -/
def Node.ofText? (text : List Char) : Except Failure (Option Node) :=
  let (tokens, failure) := tokens text
  Grammar.document tokens (failure.getD .grammar)

end EntityGraph.Yaml
