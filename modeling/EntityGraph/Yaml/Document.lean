import EntityGraph.Pointer
import EntityGraph.Source.Map
import EntityGraph.Yaml.Draft
import EntityGraph.Yaml.Grammar

/-!
# Documents

The document that a text holds, and where its nodes stand. A text without a document holds the empty
mapping, and so does one that holds null.
-/

namespace EntityGraph.Yaml

/-! ## Values -/

/-- Null read as the empty mapping. -/
def orEmpty (v : Value) : Value := if v.isNull then .map [] else v

/-- The first label of values that are no numbers, after the one that is shared. -/
def firstLabel : Nat := ScalarValue.sharedLabel + 1

/-- The root of the document that a text holds, if it holds one. No document holds a half of a
pair. -/
def rootOf? (t : Text) : Except Failure (Option Node) :=
  match t.chars? with
  | some cs => Node.ofText? cs
  | none => .error .character

/-- The document that a text holds. Values in it that are no numbers are told apart by labels, which
start where asked. -/
def read (t : Text) (label : Nat := firstLabel) : Except Failure Value := do
  match ← rootOf? t with
  | none => return .map []
  | some n => return orEmpty (← n.value? label)

/-! ## Positions -/

/-- The position of a place. -/
def Place.position (p : Place) : Source.Position := ⟨some (p.line + 1), some (p.column + 1)⟩

namespace Node

mutual

/-- The positions of a node under a pointer and of the nodes in it, outer ones first. -/
def positions (pointer : Text) : Node → List (Text × Source.Position)
  | .scalar _ _ place => [(pointer, place.position)]
  | .seq _ items place => (pointer, place.position) :: itemPositions pointer 0 items
  | .map _ entries place => (pointer, place.position) :: entryPositions pointer entries

/-- The positions in the items from an index on. -/
def itemPositions (pointer : Text) (index : Nat) : List Node → List (Text × Source.Position)
  | [] => []
  | n :: rest =>
    positions (Pointer.join pointer (toString index)) n ++ itemPositions pointer (index + 1) rest

/-- The positions in the values of entries. -/
def entryPositions (pointer : Text) : List (Node × Node) → List (Text × Source.Position)
  | [] => []
  | (k, v) :: rest =>
    positions (Pointer.join pointer k.keyText) v ++ entryPositions pointer rest

end

/-- Where the nodes of a document stand. -/
def sourceMap (n : Node) : Source.Map := .ofList (n.positions [])

end Node

/-- Where the nodes of the document that a text holds stand. A flawed text has none. -/
def sourceMap (t : Text) : Except Failure Source.Map :=
  match rootOf? t with
  | .ok none => .ok []
  | .ok (some n) => .ok n.sourceMap
  | .error f => if f.isFlaw then .ok [] else .error f

end EntityGraph.Yaml
