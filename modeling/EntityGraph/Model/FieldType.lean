import EntityGraph.Notice

/-!
# Field types

The type of a field: one of nine primitives, a reference to an entity or to an enumeration, a list
of a further type, or a generic parameter that some descendant has to bind. In a document the tag
under `type` decides which payload is read.

Two comparisons are kept apart. `FieldType.equals` compares payloads directly, `FieldType.same`
compares types as parts of larger nodes; they differ only on payloads that are not numbers.
-/

namespace EntityGraph

/-- The types without a payload. -/
inductive Primitive where
  | integer | long | double | id | url | dateTime | boolean | string
  /-- A mapping from texts to texts. -/
  | stringMap
  deriving DecidableEq, Repr

namespace Primitive

def all : List Primitive :=
  [.integer, .long, .double, .id, .url, .dateTime, .boolean, .string, .stringMap]

def tag : Primitive → String
  | .integer => "TInteger"
  | .long => "TLong"
  | .double => "TDouble"
  | .id => "TID"
  | .url => "TURL"
  | .dateTime => "TDateTime"
  | .boolean => "TBoolean"
  | .string => "TString"
  | .stringMap => "TSSMap"

def ofTag? (t : Text) : Option Primitive := all.find? fun p ↦ (p.tag : Text) == t

@[simp] theorem ofTag?_tag (p : Primitive) : ofTag? p.tag = some p := by
  cases p <;> decide

end Primitive

/-- The type of a field. -/
inductive FieldType where
  | primitive (p : Primitive)
  /-- A reference to an entity. -/
  | object (entity : ElementPath)
  /-- A reference to an enumeration. -/
  | enumeration (path : ElementPath)
  | list (member : FieldType)
  /-- A generic parameter that is not bound yet. -/
  | unknown (parameter : Value)
  deriving Inhabited, Repr

namespace FieldType

/-- The tag of a type in documents. -/
def tag : FieldType → String
  | .primitive p => p.tag
  | .object _ => "TObject"
  | .enumeration _ => "TEnum"
  | .list _ => "TList"
  | .unknown _ => "TUnknown"

/-- A type without any of its list layers. -/
def core : FieldType → FieldType
  | .list member => member.core
  | t => t

def isList : FieldType → Bool
  | .list _ => true
  | _ => false

/-! ## Equality -/

/-- Whether two types are the same type. References are compared by path only; the element they
lead to is never unrolled. -/
def equals : FieldType → FieldType → Bool
  | .primitive p, .primitive q => p == q
  | .object p, .object q => p.equals q
  | .enumeration p, .enumeration q => p.equals q
  | .list t, .list u => t.equals u
  | .unknown a, .unknown b => a.equal b
  | _, _ => false

/-- Equality of types as parts of larger nodes. -/
def same : FieldType → FieldType → Bool
  | .primitive p, .primitive q => p == q
  | .object p, .object q => p.same q
  | .enumeration p, .enumeration q => p.same q
  | .list t, .list u => t.same u
  | .unknown a, .unknown b => a.same b
  | _, _ => false

/-! ## Documents -/

def toDocument : FieldType → Value
  | .primitive p => .map [(.str "type", .str p.tag)]
  | .object p => .map [(.str "type", .str "TObject"), (.str "entity", p.toDocument)]
  | .enumeration p => .map [(.str "type", .str "TEnum"), (.str "enu", p.toDocument)]
  | .list t => .map [(.str "type", .str "TList"), (.str "member", t.toDocument)]
  | .unknown a => .map [(.str "type", .str "TUnknown"), (.str "unknown", a)]

mutual

/-- The type that a document describes: none if the tag is missing or not known, or if the payload
of the tag is missing. Only a tag that is not known leaves a notice. -/
def load : Value → Logged (Option FieldType)
  | .map entries =>
    match Value.lookup "type" entries with
    | some (.str tag) =>
      match Primitive.ofTag? tag with
      | some p => pure (some (.primitive p))
      | none =>
        if tag = "TObject" then
          pure ((ElementPath.load ((Value.map entries).field "entity")).map .object)
        else if tag = "TEnum" then
          pure ((ElementPath.load ((Value.map entries).field "enu")).map .enumeration)
        else if tag = "TList" then (Option.map .list) <$> loadMember entries
        else if tag = "TUnknown" then
          let parameter := (Value.map entries).field "unknown"
          pure (if parameter.isNull then none else some (.unknown parameter))
        else do
          Logged.note (.unknownTypeTag tag)
          return none
    | _ => pure none
  | _ => pure none
termination_by structural v => v

/-- The type under `member`. -/
def loadMember : List (Value × Value) → Logged (Option FieldType)
  | [] => pure none
  | (.str s, v) :: rest => if s = "member" then load v else loadMember rest
  | _ :: rest => loadMember rest
termination_by structural entries => entries

end

/-- The member is read as any other key is: the first entry of that name counts. -/
theorem loadMember_eq (entries : List (Value × Value)) :
    loadMember entries = load ((Value.map entries).field "member") := by
  induction entries with
  | nil => rfl
  | cons e rest ih =>
    obtain ⟨k, v⟩ := e
    cases k with
    | str s =>
      by_cases h : s = "member"
      · simp [loadMember, Value.field, Value.lookup, h]
      · simpa [loadMember, Value.field, Value.lookup, h] using ih
    | _ => simpa [loadMember, Value.field, Value.lookup] using ih

end FieldType

/-! ## Comparisons through lists -/

/-- What can be compared: a type, or the bare notion of a type, which has no tag. -/
inductive TypeOperand where
  | bare
  | typed (t : FieldType)
  deriving Repr

namespace TypeOperand

def tag : TypeOperand → String
  | .bare => ""
  | .typed t => t.tag

/-- An operand without any of its list layers. -/
def core : TypeOperand → TypeOperand
  | .bare => .bare
  | .typed t => .typed t.core

/-- Whether an operand is the same type as another, if there is another. Two operands without a tag
cannot be compared. -/
def equals : TypeOperand → Option TypeOperand → Except Fault Bool
  | _, none => .ok false
  | .bare, some .bare => .error .untagged
  | .bare, some (.typed _) => .ok false
  | .typed _, some .bare => .ok false
  | .typed t, some (.typed u) => .ok (t.equals u)

/-- Whether an operand, which must not be a list, is the core of another. -/
def equalsEvenInList : TypeOperand → Option TypeOperand → Except Fault Bool
  | .typed (.list _), _ => .error .listReceiver
  | t, other => t.equals (other.map core)

end TypeOperand

end EntityGraph
