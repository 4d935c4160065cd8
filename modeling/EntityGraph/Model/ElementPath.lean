import EntityGraph.Value.Text

/-!
# Element paths

The coordinate of an entity or an enumeration: the name of its module and its own name. A path is
only a lookup key. Whether it leads anywhere is asked of a graph, and a miss is an ordinary answer.
-/

namespace EntityGraph

/-- A coordinate in a project. A part that is null is not set. -/
structure ElementPath where
  moduleName : Value
  name : Value
  deriving Inhabited, Repr

namespace ElementPath

/-- Whether both parts are set. -/
def isComplete (p : ElementPath) : Bool := !p.moduleName.isNull && !p.name.isNull

/-- The two parts around a point. -/
def text (p : ElementPath) : Text := p.moduleName.plain ++ "." ++ p.name.plain

/-- Whether both parts have a text. -/
def isWritable (p : ElementPath) : Bool := p.moduleName.isWritable && p.name.isWritable

/-- Whether two paths name the same element, their parts compared directly. -/
def equals (p q : ElementPath) : Bool :=
  q.moduleName.equal p.moduleName && q.name.equal p.name

/-- Equality as parts of larger nodes. -/
def same (p q : ElementPath) : Bool :=
  p.moduleName.same q.moduleName && p.name.same q.name

def toDocument (p : ElementPath) : Value :=
  .map [(.str "module", p.moduleName), (.str "name", p.name)]

/-- Any mapping is a path; both parts are optional. -/
def load (v : Value) : Option ElementPath :=
  if v.isMap then some ⟨v.field "module", v.field "name"⟩ else none

@[simp] theorem load_toDocument (p : ElementPath) : load p.toDocument = some p := by
  cases p
  simp [load, toDocument, Value.isMap, Value.field, Value.lookup]

end ElementPath

end EntityGraph
