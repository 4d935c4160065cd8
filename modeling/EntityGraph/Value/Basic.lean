import EntityGraph.Calendar
import EntityGraph.Number.Integer

/-!
# Document values

What a document says before anything is known about its meaning: a tree of scalars, sequences and
mappings. Mappings keep their entries in the order of the document, and their keys may be any
scalar. A key that is absent and a key whose value is null are read alike, so `Value.field` answers
null for both.
-/

namespace EntityGraph

/-- A document value. -/
inductive Value where
  | null
  | bool (b : Bool)
  | int (n : Int)
  | float (x : Binary64)
  | str (t : Text)
  | bytes (bs : List UInt8)
  | date (d : Date)
  | moment (t : Moment)
  | seq (items : List Value)
  /-- An entry of an ordered mapping, which is a sequence of pairs. -/
  | pair (key value : Value)
  | map (entries : List (Value × Value))
  | set (items : List Value)
  deriving Inhabited, Repr

namespace Value

/-! ## Kinds -/

/-- The kinds of values. -/
inductive Kind where
  | null | bool | int | float | str | bytes | date | moment | seq | pair | map | set
  deriving DecidableEq, Repr

def kind : Value → Kind
  | .null => .null
  | .bool _ => .bool
  | .int _ => .int
  | .float _ => .float
  | .str _ => .str
  | .bytes _ => .bytes
  | .date _ => .date
  | .moment _ => .moment
  | .seq _ => .seq
  | .pair _ _ => .pair
  | .map _ => .map
  | .set _ => .set

/-- The name of a kind in messages. -/
def Kind.name : Kind → String
  | .null => "NoneType"
  | .bool => "bool"
  | .int => "int"
  | .float => "float"
  | .str => "str"
  | .bytes => "bytes"
  | .date => "date"
  | .moment => "datetime"
  | .seq => "list"
  | .pair => "tuple"
  | .map => "dict"
  | .set => "set"

def isNull : Value → Bool
  | .null => true
  | _ => false

def isMap : Value → Bool
  | .map _ => true
  | _ => false

/-- Whether a value can be a key: sequences, mappings and sets cannot. -/
def isKey : Value → Bool
  | .seq _ | .map _ | .set _ => false
  | .pair a b => a.isKey && b.isKey
  | _ => true

/-- The values that count as absent where a text is expected: null, false, the zeros, and whatever
is empty. -/
def isBlank : Value → Bool
  | .null => true
  | .bool b => !b
  | .int n => n == 0
  | .float x => x.isZero
  | .str s => s.isEmpty
  | .bytes bs => bs.isEmpty
  | .seq items => items.isEmpty
  | .map entries => entries.isEmpty
  | .set items => items.isEmpty
  | .date _ | .moment _ | .pair _ _ => false

/-! ## Access -/

/-- The value of the first entry whose key is a text. -/
def lookup (key : Text) : List (Value × Value) → Option Value
  | [] => none
  | (.str s, v) :: rest => if s = key then some v else lookup key rest
  | _ :: rest => lookup key rest

/-- The value under a key; null where the key is absent or the value is not a mapping. -/
def field (key : Text) : Value → Value
  | .map entries => (lookup key entries).getD .null
  | _ => .null

/-- The keys of a list that are absent from a value, or null there. -/
def missing (keys : List Text) (v : Value) : List Text :=
  keys.filter fun k ↦ (v.field k).isNull

/-- A value as a number: the truth values count as one and zero. -/
def number? : Value → Option Number
  | .bool b => some (.int (if b then 1 else 0))
  | .int n => some (.int n)
  | .float x => some (.float x)
  | _ => none

/-! ## Writing -/

mutual

/-- Whether a value has a text: every whole number in it keeps to the limit of digits. -/
def isWritable : Value → Bool
  | .int n => Integer.isWritable n
  | .seq items => areWritable items
  | .pair a b => isWritable a && isWritable b
  | .map entries => entriesWritable entries
  | .set items => areWritable items
  | _ => true
termination_by structural v => v

/-- Whether each of some values has a text. -/
def areWritable : List Value → Bool
  | [] => true
  | v :: rest => isWritable v && areWritable rest
termination_by structural vs => vs

/-- Whether each of some keys and values has a text. -/
def entriesWritable : List (Value × Value) → Bool
  | [] => true
  | (k, v) :: rest => isWritable k && isWritable v && entriesWritable rest
termination_by structural entries => entries

end

/-! ## Equality -/

mutual

/-- Equality of values as members of a container. Numbers are compared across their kinds, mappings
and sets without regard to order, and a value that is not a number is the same as itself. -/
def same : Value → Value → Bool
  | .null, .null => true
  | .str s, .str t => s == t
  | .bytes s, .bytes t => s == t
  | .date d, .date e => d == e
  | .moment s, .moment t => s.same t
  | .seq xs, .seq ys => sameItems xs ys
  | .pair a b, .pair c d => same a c && same b d
  | .map xs, .map ys => xs.length == ys.length && entriesIn xs ys
  | .set xs, .set ys => xs.length == ys.length && itemsIn xs ys
  | x, y =>
    match x.number?, y.number? with
    | some a, some b => a.same b
    | _, _ => false
termination_by structural x => x

/-- Sequences are the same item by item. -/
def sameItems : List Value → List Value → Bool
  | [], [] => true
  | x :: xs, y :: ys => same x y && sameItems xs ys
  | _, _ => false
termination_by structural x => x

/-- Every entry of the first mapping is in the second. -/
def entriesIn : List (Value × Value) → List (Value × Value) → Bool
  | [], _ => true
  | (k, v) :: xs, ys =>
    (match ys.find? fun e ↦ same k e.1 with
      | some e => same v e.2
      | none => false) && entriesIn xs ys
termination_by structural x => x

/-- Every item of the first set is in the second. -/
def itemsIn : List Value → List Value → Bool
  | [], _ => true
  | x :: xs, ys => (ys.any fun y ↦ same x y) && itemsIn xs ys
termination_by structural x => x

end

/-- Whether a value is not a number although it stands for one. -/
def isNaN : Value → Bool
  | .float (.nan _) => true
  | _ => false

/-- Equality of two values compared directly: as in a container, but what is not a number equals
nothing, not even itself. -/
def equal (a b : Value) : Bool := !a.isNaN && !b.isNaN && a.same b

end Value

end EntityGraph
