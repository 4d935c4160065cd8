import EntityGraph.Pointer
import EntityGraph.Schema.Validation
import EntityGraph.Notice

/-!
# Issues

A finding about a document and the pointer of the node it is about. How grave a finding is and how
it is worded follow from what it is.
-/

namespace EntityGraph

/-- How grave an issue is. -/
inductive Severity where
  | error | warning
  deriving DecidableEq, Repr

def Severity.name : Severity → String
  | .error => "error"
  | .warning => "warning"

/-- Why a node does not load. -/
inductive DropReason where
  | notAMapping
  | missing (keys : List Text)
  | unsupported

/-- A finding about a node. -/
inductive Finding where
  | rootNotAMapping
  | violation (cause : Schema.Cause)
  | notAProject (reason : DropReason)
  | dropped (kind : NodeKind) (name : Value) (reason : DropReason)
  | parentIsEnumeration (parent owner : ElementPath)
  | parentUnresolved (parent owner : ElementPath)
  | responseUnresolved (response owner : ElementPath)
  | entityUnresolved (path : ElementPath)
  | enumerationUnresolved (path : ElementPath)
  | cyclicInheritance (followed : List ElementPath)

/-- A finding and the pointer of its node. -/
structure Issue where
  finding : Finding
  pointer : Text

/-- What is wrong with a node of this name. -/
def DropReason.message (what : Text) : DropReason → Text
  | .notAMapping => what ++ " must be a mapping"
  | .missing keys =>
    what ++ " is missing required field(s): " ++
      Text.joined ", " (keys.map fun (k : Text) ↦ "'" ++ k ++ "'")
  | .unsupported => what ++ " has an unsupported value"

/-- The name of a role in findings; both roles of a field have one name. -/
def NodeKind.title : NodeKind → String
  | .moduleNode => "Module"
  | .entity => "Entity"
  | .enumeration => "Enum"
  | .field | .genericBinding => "Field"
  | .enumItem => "Enum item"

namespace Finding

/-- Dropped nodes and paths that lead nowhere are warnings. -/
def severity : Finding → Severity
  | .dropped _ _ _ | .parentUnresolved _ _ | .responseUnresolved _ _ | .entityUnresolved _
  | .enumerationUnresolved _ => .warning
  | _ => .error

def message : Finding → Text
  | .rootNotAMapping => "Root must be a mapping/object"
  | .violation cause => cause.message
  | .notAProject reason => reason.message "Project"
  | .dropped kind name reason =>
    reason.message (kind.title ++ " " ++ name.shown) ++ "; it will be skipped"
  | .parentIsEnumeration parent owner =>
    "Parent '" ++ parent.text ++ "' of '" ++ owner.text ++ "' is an enumeration, not an entity"
  | .parentUnresolved parent owner =>
    "Unresolved parent '" ++ parent.text ++ "' of '" ++ owner.text ++ "'"
  | .responseUnresolved response owner =>
    "Unresolved response '" ++ response.text ++ "' of '" ++ owner.text ++ "'"
  | .entityUnresolved path => "Unresolved entity reference '" ++ path.text ++ "'"
  | .enumerationUnresolved path => "Unresolved enum reference '" ++ path.text ++ "'"
  | .cyclicInheritance followed => (Fault.cyclicInheritance followed).message

end Finding

namespace Issue

def severity (i : Issue) : Severity := i.finding.severity

def message (i : Issue) : Text := i.finding.message

end Issue

end EntityGraph
