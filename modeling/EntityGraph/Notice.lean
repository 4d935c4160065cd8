import EntityGraph.Fault
import EntityGraph.Log.Record

/-!
# Notices

Everything the library has to say while it works, as data. Loading is the main source: a malformed
node is dropped at the smallest scope, and each drop leaves a notice. The wording, the level and the
channel of a notice are given by `Notice.record`.
-/

namespace EntityGraph

/-- The roles a node can have under a name. -/
inductive NodeKind where
  | moduleNode | entity | enumeration | field | genericBinding | enumItem
  deriving DecidableEq, Repr

/-- The name of a role in notices. -/
def NodeKind.name : NodeKind → String
  | .moduleNode => "module"
  | .entity => "entity"
  | .enumeration => "enum"
  | .field => "field"
  | .genericBinding => "generic binding"
  | .enumItem => "enum item"

/-- Something worth saying. -/
inductive Notice where
  /-- An entry was dropped because it does not load. -/
  | dropped (kind : NodeKind) (name : Value)
  /-- Entries were expected and a value that is not a mapping was found. -/
  | notAMapping (kind : NodeKind) (found : Value.Kind)
  | abstractNotTruth (v : Value)
  | unknownEntityKind (v : Value)
  | unknownMethod (v : Value)
  | unknownTypeTag (tag : Text)
  | projectLoaded (name : Value) (modules : Nat)
  | parentUnresolved (path : ElementPath)
  | walkFailed (path : ElementPath) (followed : List ElementPath)
  | reading (file : Text)
  | fromCache (file : Text)
  | cacheCleared
  | notAProject (file : Text)
  | checkingReferences (entities : Nat) (file : Text)
  | lintFailed (file : Text) (fault : Fault)
  deriving Repr

namespace Notice

/-- The level of a notice: a warning for what is left out, an error for a check that broke off. -/
def level : Notice → Log.Level
  | .dropped _ _ | .notAMapping _ _ | .notAProject _ => .warning
  | .lintFailed _ _ => .error
  | _ => .debug

/-- The channel of a notice. -/
def channel : Notice → String
  | .dropped _ _ | .notAMapping _ _ => "entity_schema.utils.document_utils"
  | .abstractNotTruth _ | .unknownEntityKind _ | .unknownMethod _ | .parentUnresolved _ =>
    "entity_schema.models.entity"
  | .unknownTypeTag _ => "entity_schema.models.field_type"
  | .projectLoaded _ _ => "entity_schema.models.project"
  | .walkFailed _ _ => "entity_schema.schema.reference_checks"
  | .reading _ | .fromCache _ | .cacheCleared | .notAProject _ =>
    "entity_schema.parsing.document_parser"
  | .checkingReferences _ _ => "entity_schema.linter.reference_linter"
  | .lintFailed _ _ => "entity_schema.linter"

/-- Whether everything that a notice tells of has a text. One that is not writable has no record. -/
def isWritable : Notice → Bool
  | .dropped _ name => name.isWritable
  | .abstractNotTruth v | .unknownEntityKind v | .unknownMethod v => v.isWritable
  | .projectLoaded name _ => name.isWritable
  | .parentUnresolved path => path.isWritable
  | .walkFailed path followed => path.isWritable && followed.all ElementPath.isWritable
  | _ => true

def message : Notice → Text
  | .dropped kind name => "Dropping malformed " ++ kind.name ++ " '" ++ name.plain ++ "'"
  | .notAMapping kind found =>
    "Expected a mapping of " ++ kind.name ++ " entries, got " ++ found.name
  | .abstractNotTruth v => "Non-boolean isAbstract value " ++ v.shown
  | .unknownEntityKind v => "Unknown entity type value " ++ v.shown
  | .unknownMethod v => "Unknown request method value " ++ v.shown
  | .unknownTypeTag tag => "Unsupported field type '" ++ tag ++ "'"
  | .projectLoaded name modules =>
    "Loaded project '" ++ name.plain ++ "' with " ++ toString modules ++ " module(s)"
  | .parentUnresolved path =>
    "Parent " ++ path.text ++ " does not resolve, chain starts below it"
  | .walkFailed path followed =>
    "Inheritance walk of " ++ path.text ++ " failed: " ++
      (Fault.cyclicInheritance followed).message
  | .reading file => "Loading document file: " ++ file
  | .fromCache file => "Loading document from cache: " ++ file
  | .cacheCleared => "Document cache cleared"
  | .notAProject file => "Document " ++ file ++ " does not describe a project"
  | .checkingReferences entities file =>
    "Checking references of " ++ toString entities ++ " entities in " ++ file
  | .lintFailed file _ => "Linting " ++ file ++ " failed"

/-- The record that a notice is written as, if it is writable. -/
def record (n : Notice) : Log.Record :=
  { level := n.level
    channel := n.channel
    message := n.message
    trace := match n with
      | .lintFailed _ fault => some fault.label
      | _ => none }

end Notice

/-! ## Values with notices -/

/-- A value together with the notices that came up on the way to it, in order. -/
structure Logged (α : Type) where
  value : α
  notices : List Notice := []
  deriving Repr

namespace Logged

variable {α β : Type}

instance : Monad Logged where
  pure a := ⟨a, []⟩
  bind x f := ⟨(f x.value).value, x.notices ++ (f x.value).notices⟩

/-- One notice and nothing else. -/
def note (n : Notice) : Logged Unit := ⟨(), [n]⟩

@[simp] theorem pure_value (a : α) : (pure a : Logged α).value = a := rfl

@[simp] theorem pure_notices (a : α) : (pure a : Logged α).notices = [] := rfl

@[simp] theorem bind_value (x : Logged α) (f : α → Logged β) :
    (x >>= f).value = (f x.value).value := rfl

@[simp] theorem bind_notices (x : Logged α) (f : α → Logged β) :
    (x >>= f).notices = x.notices ++ (f x.value).notices := rfl

@[simp] theorem map_value (f : α → β) (x : Logged α) : (f <$> x).value = f x.value := rfl

@[simp] theorem map_notices (f : α → β) (x : Logged α) : (f <$> x).notices = x.notices := by
  change x.notices ++ [] = x.notices
  simp

@[simp] theorem note_notices (n : Notice) : (note n).notices = [n] := rfl

end Logged

/-- A query that may meet a fault; the notices up to the fault are kept. -/
abbrev Query (α : Type) := ExceptT Fault Logged α

namespace Query

variable {α : Type}

/-- A query that answers without a notice, or meets a fault. -/
def ofExcept (x : Except Fault α) : Query α := ExceptT.mk ⟨x, []⟩

/-- One notice in a query. -/
def note (n : Notice) : Query Unit := ExceptT.mk ⟨.ok (), [n]⟩

/-- The answer of a query, or its fault, with the notices. -/
def outcome (q : Query α) : Logged (Except Fault α) := q.run

end Query

/-- A computation with a state of its own. What it has done to the state stays done when it meets a
fault. -/
abbrev Visit (σ α : Type) := ExceptT Fault (StateT σ Logged) α

namespace Visit

variable {σ α : Type}

/-- A query does nothing to the state. -/
def ofQuery (q : Query α) : Visit σ α :=
  ExceptT.mk fun s ↦ (fun found ↦ (found, s)) <$> q.outcome

/-- The answer from a state on, or the fault, together with the state that is left. -/
def outcome (x : Visit σ α) (s : σ) : Logged (Except Fault α × σ) := x.run.run s

end Visit

end EntityGraph
