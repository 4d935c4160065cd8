import EntityGraph.Value.Basic

/-!
# Wire numbers

The two enumerations that documents write as whole numbers: what an entity is, and the method of a
request. A truth value is never a wire number, and neither is a number with a point.
-/

namespace EntityGraph

/-- The whole number of a document value. -/
def wireNumber? : Value → Option Int
  | .int n => some n
  | _ => none

/-- What an entity is. -/
inductive EntityKind where
  | object | request | response
  deriving DecidableEq, Repr, Inhabited

namespace EntityKind

def all : List EntityKind := [.object, .request, .response]

def toWire : EntityKind → Int
  | .object => 0
  | .request => 1
  | .response => 2

def ofWire? (v : Value) : Option EntityKind :=
  (wireNumber? v).bind fun n ↦ all.find? fun k ↦ k.toWire == n

/-- The name of a kind, in capitals. -/
def name : EntityKind → String
  | .object => "OBJECT"
  | .request => "REQUEST"
  | .response => "RESPONSE"

/-- The word of a kind. -/
def word : EntityKind → String
  | .object => "object"
  | .request => "request"
  | .response => "response"

@[simp] theorem ofWire?_toWire (k : EntityKind) : ofWire? (.int k.toWire) = some k := by
  cases k <;> decide

end EntityKind

/-- The method of a request. -/
inductive Method where
  | get | head | post | put | delete | connect | options | trace | patch
  | socket | mqtt
  deriving DecidableEq, Repr

namespace Method

def all : List Method :=
  [.get, .head, .post, .put, .delete, .connect, .options, .trace, .patch, .socket, .mqtt]

def toWire : Method → Int
  | .get => 0
  | .head => 1
  | .post => 2
  | .put => 3
  | .delete => 4
  | .connect => 5
  | .options => 6
  | .trace => 7
  | .patch => 8
  | .socket => 9
  | .mqtt => 10

def ofWire? (v : Value) : Option Method :=
  (wireNumber? v).bind fun n ↦ all.find? fun m ↦ m.toWire == n

def name : Method → String
  | .get => "GET"
  | .head => "HEAD"
  | .post => "POST"
  | .put => "PUT"
  | .delete => "DELETE"
  | .connect => "CONNECT"
  | .options => "OPTIONS"
  | .trace => "TRACE"
  | .patch => "PATCH"
  | .socket => "SOCKET"
  | .mqtt => "MQTT"

/-- Whether the method is one of the web; the others are messages. -/
def isHttp : Method → Bool
  | .socket | .mqtt => false
  | _ => true

@[simp] theorem ofWire?_toWire (m : Method) : ofWire? (.int m.toWire) = some m := by
  cases m <;> decide

end Method

end EntityGraph
