import EntityGraph.Fault

/-!
# Tables

Name-keyed tables in the order of the document. A name may be any scalar value, and two names are
the same entry when they are the same as members of a container, so that `1` and `1.0` are one name.
-/

namespace EntityGraph

/-- A table from names to items, in document order. -/
abbrev Table (α : Type) := List (Value × α)

namespace Table

variable {α β : Type}

/-- The names of a table. -/
def names (t : Table α) : List Value := t.map (·.1)

/-- The item under a name. -/
def find? (t : Table α) (name : Value) : Option α :=
  (List.find? (fun e ↦ name.same e.1) t).map (·.2)

/-- The item under a name, for a name that may turn out not to be one: sequences, mappings and sets
cannot be looked up, even in an empty table. -/
def get (t : Table α) (name : Value) : Except Fault (Option α) :=
  if name.isKey then .ok (t.find? name) else .error (.notAKey name.kind)

/-- A name that can be one, or the fault of using it. -/
def checkName (name : Value) : Except Fault Value :=
  if name.isKey then .ok name else .error (.notAKey name.kind)

/-- Puts an item under a name: in the place of the item it replaces, or last. A name that is there
stays as it was first written. -/
def insert (t : Table α) (name : Value) (item : α) : Table α :=
  match t with
  | [] => [(name, item)]
  | (n, i) :: rest =>
    if name.same n then (n, item) :: rest else (n, i) :: insert rest name item

/-- Takes the item under a name away. -/
def erase (t : Table α) (name : Value) : Table α :=
  match t with
  | [] => []
  | (n, i) :: rest => if name.same n then rest else (n, i) :: erase rest name

/-- The same names, with other items. -/
def mapItems (f : α → β) (t : Table α) : Table β := t.map fun e ↦ (e.1, f e.2)

/-- Tables are the same when they have the same names and, under each, the same item. -/
def same (sameItem : α → α → Bool) (s t : Table α) : Bool :=
  s.length == t.length && s.all fun e ↦
    match t.find? e.1 with
    | some item => sameItem e.2 item
    | none => false

end Table

end EntityGraph
