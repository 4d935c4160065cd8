import EntityGraph.Model.Field
import EntityGraph.Model.Wire
import EntityGraph.Table

/-!
# Entities

The declaration of an object, a request or a response. `parent` and `response` are paths, which only
a graph can follow; the fields are those declared here and nothing inherited.
-/

namespace EntityGraph

/-- An object, request or response declaration. -/
structure Entity where
  kind : EntityKind := .object
  /-- Abstract entities are not to be instantiated. -/
  isAbstract : Bool := false
  parent : Option ElementPath := none
  /-- Of requests only. -/
  response : Option ElementPath := none
  /-- The path template of a request; null where there is none. -/
  path : Value := .null
  /-- Of requests only. -/
  method : Option Method := none
  /-- The fields declared here. -/
  fields : Table Field := []
  /-- The generic parameters bound here. -/
  bindings : Table Field := []
  remarks : Remarks := {}
  deriving Inhabited, Repr

namespace Entity

/-- The keys without which an entity does not load. -/
def requiredKeys : List Text := ["type", "isAbstract", "fieldsLocal", "genericMap"]

def isRequest (e : Entity) : Bool := e.kind == .request

/-- The generic parameters that local fields mention, in the order of declaration. -/
def localGenerics (e : Entity) : List Value :=
  e.fields.filterMap fun f ↦
    match f.2.type with
    | .unknown parameter => some parameter
    | _ => none

/-! ## Documents -/

def toDocument (e : Entity) : Value :=
  .map ([(.str "type", .int e.kind.toWire), (.str "isAbstract", .bool e.isAbstract),
    (.str "fieldsLocal", .map (e.fields.mapItems Field.toDocument)),
    (.str "genericMap", .map (e.bindings.mapItems Field.toDocument))] ++ e.remarks.entries ++
    someEntry "parent" (e.parent.map ElementPath.toDocument) ++
    someEntry "response" (e.response.map ElementPath.toDocument) ++
    optionalEntry "path" e.path ++
    someEntry "method" (e.method.map fun m ↦ .int m.toWire))

/-- The method of a document value: none for null, and no entity at all for a value that is no
method. -/
def loadMethod (v : Value) : Query (Option (Option Method)) :=
  if v.isNull then pure (some none)
  else
    match Method.ofWire? v with
    | some m => pure (some (some m))
    | none => do
      Query.note (.unknownMethod v)
      return none

/-- The entity that a document describes. The flag, the kind and the method are looked at in this
order, and the first that does not load leaves a notice; then the fields are loaded, and the
malformed among them are dropped. -/
def load (v : Value) : Query (Option Entity) :=
  if v.missing requiredKeys ≠ [] then pure none
  else
    match v.field "isAbstract" with
    | .bool isAbstract =>
      match EntityKind.ofWire? (v.field "type") with
      | none => do
        Query.note (.unknownEntityKind (v.field "type"))
        return none
      | some kind => do
        match ← loadMethod (v.field "method") with
        | none => return none
        | some method =>
          let fields ← loadChildren .field Field.load (v.field "fieldsLocal")
          let bindings ← loadChildren .genericBinding Field.load (v.field "genericMap")
          return some
            { kind, isAbstract, method, fields, bindings
              parent := ElementPath.load (v.field "parent")
              response := ElementPath.load (v.field "response")
              path := v.field "path"
              remarks := ← Remarks.load v }
    | other => do
      Query.note (.abstractNotTruth other)
      return none

end Entity

end EntityGraph
