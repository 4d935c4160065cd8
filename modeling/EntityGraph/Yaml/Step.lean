import EntityGraph.Yaml.Failure
import EntityGraph.Yaml.Cursor

/-!
# Steps towards a value

A document's nodes become values in steps, and a step may change what later ones find. A default key
is a text as soon as the mapping that it is in is filled, or merged into another; read before that,
by itself, it means nothing. A mapping that merges others holds their entries from then on as if
they were its own. And a mapping that is read as a scalar, by its default key, can only be read
while that key is not yet a text; what was read once is kept.

Nodes are told apart by their places.
-/

namespace EntityGraph.Yaml

/-- A step towards a value. -/
inductive Step where
  | fails (f : Failure)
  /-- A default key becomes a text. -/
  | makesText (key : Place)
  /-- A mapping takes in the entries that it merges. -/
  | merges (mapping : Place)
  /-- A default key is read by itself. -/
  | needsText (key : Place)
  /-- The entries of a mapping are looked at as if it had taken in what it merges. -/
  | needsMerged (mapping : Place)
  /-- A mapping is read as a scalar, by way of some default keys. -/
  | readsDefault (mapping : Place) (keys : List Place)
  deriving DecidableEq, Repr

/-- What steps have come to: the default keys that are texts, the mappings that have taken in what
they merge, and those that were read as scalars. -/
structure Progress where
  texts : List Place := []
  merged : List Place := []
  read : List Place := []
  deriving Repr

namespace Progress

/-- Goes on under a condition; without it the node has no value. -/
def require (p : Progress) (condition : Bool) : Except Failure Progress :=
  if condition then .ok p else .error .construction

/-- The progress after a step, or the failure that it is. -/
def after (p : Progress) : Step → Except Failure Progress
  | .fails f => .error f
  | .makesText key => .ok { p with texts := key :: p.texts }
  | .merges mapping => .ok { p with merged := mapping :: p.merged }
  | .needsText key => p.require (p.texts.contains key)
  | .needsMerged mapping => p.require (p.merged.contains mapping)
  | .readsDefault mapping keys =>
    if p.read.contains mapping then .ok p
    else { p with read := mapping :: p.read }.require (!keys.any p.texts.contains)

/-- The progress after steps one after the other, up to the first that fails. -/
def afterAll (p : Progress) (steps : List Step) : Except Failure Progress := steps.foldlM after p

end Progress

end EntityGraph.Yaml
