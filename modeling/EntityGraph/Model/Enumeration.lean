import EntityGraph.Model.Entries
import EntityGraph.Model.Remarks
import EntityGraph.Table

/-!
# Enumerations

A table of numbered items. The numbers need not be contiguous, nor different: the first item is one
with the least number, and of several with that number the last in document order.
-/

namespace EntityGraph

/-- An item of an enumeration. -/
structure EnumItem where
  value : Number
  /-- The name for generated code where the key cannot serve; null where there is none. -/
  realname : Value := .null
  remarks : Remarks := {}
  deriving Repr

namespace EnumItem

/-- The keys without which an item does not load. -/
def requiredKeys : List Text := ["value"]

/-- The number of a document value; a truth value is not one. -/
def number? : Value → Option Number
  | .int n => some (.int n)
  | .float x => some (.float x)
  | _ => none

/-- A number as a document value. -/
def numberDocument : Number → Value
  | .int n => .int n
  | .float x => .float x

def toDocument (i : EnumItem) : Value :=
  .map ((.str "value", numberDocument i.value) :: i.remarks.entries ++
    optionalEntry "realname" i.realname)

def load (v : Value) : Query (Option EnumItem) :=
  match number? (v.field "value") with
  | none => pure none
  | some value => do
    return some { value, realname := v.field "realname", remarks := ← Remarks.load v }

/-- Equality as parts of larger nodes. -/
def same (i j : EnumItem) : Bool :=
  i.value.same j.value && i.realname.same j.realname && i.remarks.same j.remarks

end EnumItem

/-- A table of numbered items. -/
structure Enumeration where
  items : Table EnumItem := []
  remarks : Remarks := {}
  deriving Inhabited, Repr

namespace Enumeration

/-- The keys without which an enumeration does not load. -/
def requiredKeys : List Text := ["enumMap"]

/-- The entry that a scan in document order ends with, when it moves on to every entry whose number
is not above that of the entry it stands at. -/
def scan (best : Value × EnumItem) : List (Value × EnumItem) → Value × EnumItem
  | [] => best
  | e :: rest => if e.2.value.le best.2.value then scan e rest else scan best rest

/-- The first entry: one with the least number. -/
def firstEntry (e : Enumeration) : Option (Value × EnumItem) :=
  match e.items with
  | [] => none
  | entry :: rest => some (scan entry rest)

/-- The name of the first item. A name that is null is none. -/
def firstName (e : Enumeration) : Option Value :=
  (e.firstEntry.map (·.1)).filter fun name ↦ !name.isNull

/-- The first item, found by its name. -/
def first (e : Enumeration) : Option EnumItem := e.firstName.bind e.items.find?

def toDocument (e : Enumeration) : Value :=
  .map ((.str "enumMap", .map (e.items.mapItems EnumItem.toDocument)) :: e.remarks.entries)

def load (v : Value) : Query (Option Enumeration) :=
  if v.missing requiredKeys ≠ [] then pure none
  else do
    let items ← loadChildren .enumItem EnumItem.load (v.field "enumMap")
    return some { items, remarks := ← Remarks.load v }

/-- Equality as parts of larger nodes. -/
def same (d e : Enumeration) : Bool :=
  d.items.same EnumItem.same e.items && d.remarks.same e.remarks

end Enumeration

end EntityGraph
