import EntityGraph.Check.Issue
import EntityGraph.Schema.ProjectSchema

/-!
# Structure

The check of a document against a schema: one issue for each violation, sorted by the texts of the
keys on the way to it. Violations with one path stay in the order in which they were found.
-/

namespace EntityGraph

namespace Schema

/-- The texts of the keys on the way to a violation. -/
def Violation.tokens (v : Violation) : List Text := v.path.map Value.plain

/-- The fault that keeps violations from being told: a violation that cannot be told itself, and
then a key without a text. -/
def faultOf? (vs : List Violation) : Option Fault :=
  match vs.findSome? fun v ↦ v.cause.fault? with
  | some fault => some fault
  | none => if vs.all fun v ↦ Value.areWritable v.path then none else some .numberTooLong

/-- The issue of a violation. -/
def Violation.issue (v : Violation) : Issue :=
  ⟨.violation v.cause, Pointer.ofTokens v.tokens⟩

end Schema

/-- The issues of a document under a schema. A document that is not a mapping has one issue and is
not looked into. -/
def structureIssues (schema document : Value) : Except Fault (List Issue) :=
  if document.isMap then
    let found := Schema.violations schema document
    match Schema.faultOf? found with
    | some fault => .error fault
    | none =>
      .ok ((found.mergeSort fun v w ↦ Text.listLe v.tokens w.tokens).map Schema.Violation.issue)
  else .ok [⟨.rootNotAMapping, []⟩]

/-- A mapping has the issues of its violations and no others. -/
theorem mem_iff_of_structureIssues {schema document : Value} {issues : List Issue}
    (hmap : document.isMap = true) (h : structureIssues schema document = .ok issues) (i : Issue) :
    i ∈ issues ↔ ∃ x ∈ Schema.violations schema document, x.issue = i := by
  rw [structureIssues, if_pos hmap] at h
  dsimp only at h
  split at h
  next => cases h
  next =>
    cases h
    simp only [List.mem_map, List.mem_mergeSort]

end EntityGraph
