import EntityGraph.Model.Entries
import EntityGraph.Model.FieldType
import EntityGraph.Model.Remarks

/-!
# Fields

A typed member of an entity. The same node describes a local field and the binding of a generic
parameter; the table that holds it decides which.
-/

namespace EntityGraph

/-- A typed member of an entity. -/
structure Field where
  type : FieldType
  isOptional : Bool := false
  /-- Whether the value travels in the path of a request and not in its body. -/
  isPathParameter : Bool := false
  /-- The name for generated code where the key cannot serve; null where there is none. -/
  realname : Value := .null
  /-- The only value of the field; null where there is none. -/
  fixedValue : Value := .null
  remarks : Remarks := {}
  deriving Inhabited, Repr

namespace Field

/-- The keys without which a field does not load. -/
def requiredKeys : List Text := ["type", "isOptional", "isPathParameter"]

def hasFixedValue (f : Field) : Bool := !f.fixedValue.isNull

def toDocument (f : Field) : Value :=
  .map ([(.str "type", f.type.toDocument), (.str "isOptional", .bool f.isOptional),
    (.str "isPathParameter", .bool f.isPathParameter)] ++ f.remarks.entries ++
    optionalEntry "realname" f.realname ++ optionalEntry "fixedValue" f.fixedValue)

/-- A field loads if its three required keys are there, its type loads, and both flags are truth
values. -/
def load (v : Value) : Query (Option Field) :=
  if v.missing requiredKeys ≠ [] then pure none
  else do
    match ← FieldType.load (v.field "type") with
    | none => return none
    | some type =>
      match v.field "isOptional", v.field "isPathParameter" with
      | .bool isOptional, .bool isPathParameter =>
        return some
          { type, isOptional, isPathParameter
            realname := v.field "realname"
            fixedValue := v.field "fixedValue"
            remarks := ← Remarks.load v }
      | _, _ => return none

/-- Equality as parts of larger nodes. -/
def same (f g : Field) : Bool :=
  f.type.same g.type && f.isOptional == g.isOptional && f.isPathParameter == g.isPathParameter &&
    f.realname.same g.realname && f.fixedValue.same g.fixedValue && f.remarks.same g.remarks

end Field

end EntityGraph
