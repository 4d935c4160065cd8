import EntityGraph.Model.ElementPath
import EntityGraph.Schema.Reference

/-!
# Faults

What can go wrong while a graph is queried or a document is checked. None of these is a finding
about the document: a fault ends the query that meets it.
-/

namespace EntityGraph

/-- Why a query ends without an answer. -/
inductive Fault where
  /-- A value of this kind was looked up as a name. -/
  | notAKey (kind : Value.Kind)
  /-- A value of this kind was used as a token of a pointer. Bytes and dates know a replacement of
  their own, which a text does not fit; other kinds know none. -/
  | notAText (kind : Value.Kind)
  /-- An inheritance chain came back to an entity it had visited; the paths followed so far. -/
  | cyclicInheritance (followed : List ElementPath)
  /-- A list type was asked whether it equals the core of another type. -/
  | listReceiver
  /-- Two types without a tag were compared. -/
  | untagged
  /-- A text was asked of a whole number that has too many digits for one. -/
  | numberTooLong
  /-- A reference of a schema leads nowhere. -/
  | reference (p : Schema.Reference.Problem)
  deriving Repr

namespace Fault

/-- The word that names the kind of fault in a report. -/
def label : Fault → String
  | .notAKey _ | .untagged => "TypeError"
  | .notAText .bytes | .notAText .date | .notAText .moment => "TypeError"
  | .notAText _ => "AttributeError"
  | .cyclicInheritance _ => "CyclicInheritanceError"
  | .listReceiver => "FieldTypeUsageError"
  | .numberTooLong => "ValueError"
  | .reference p => p.label

def message : Fault → Text
  | .notAKey kind => "unhashable type: '" ++ kind.name ++ "'"
  | .notAText .bytes => "a bytes-like object is required, not 'str'"
  | .notAText .date | .notAText .moment => "'str' object cannot be interpreted as an integer"
  | .notAText kind => "'" ++ kind.name ++ "' object has no attribute 'replace'"
  | .cyclicInheritance followed =>
    "Cyclic inheritance: " ++ Text.joined " -> " (followed.map ElementPath.text)
  | .listReceiver => "List field type shall not use equals_even_in_list"
  | .untagged => "Unknown field type variant: FieldType"
  | .numberTooLong => Integer.limitMessage ++ Integer.limitAdvice
  | .reference p => p.message

/-- The fault of a chain that came back: to be told at all, its paths have to have texts. -/
def cyclic (followed : List ElementPath) : Fault :=
  if followed.all ElementPath.isWritable then .cyclicInheritance followed else .numberTooLong

/-- A condition for having a text, or the fault of asking for one without it. -/
def requireWritable (isWritable : Bool) : Except Fault Unit :=
  if isWritable then .ok () else .error .numberTooLong

end Fault

/-- The text of a value, if it has one. -/
def Value.written (v : Value) : Except Fault Text := do
  Fault.requireWritable v.isWritable
  return v.plain

/-- The text of a path, if it has one. -/
def ElementPath.written (p : ElementPath) : Except Fault Text := do
  Fault.requireWritable p.isWritable
  return p.text

end EntityGraph
