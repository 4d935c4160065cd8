import EntityGraph.Check.Issue
import EntityGraph.Source.Location

/-!
# Lint reports

What was found in one file: errors and warnings, each with its message and, as far as that is known,
where it was found.
-/

namespace EntityGraph.Lint

/-- One thing that was found. -/
structure Entry where
  message : Text
  position : Source.Position := {}
  pointer : Option Text := none
  deriving DecidableEq, Repr

/-- What was found in a file. -/
structure Report where
  file : Files.Path
  errors : List Entry := []
  warnings : List Entry := []
  deriving DecidableEq, Repr

namespace Report

/-- Whether there are no errors. -/
def isOk (r : Report) : Bool := r.errors.isEmpty

def addError (r : Report) (e : Entry) : Report := { r with errors := r.errors ++ [e] }

def addWarning (r : Report) (e : Entry) : Report := { r with warnings := r.warnings ++ [e] }

/-- Adds an issue by its severity, with its location after its message. -/
def addIssue (base : Option Files.Path) (m : Source.Map) (r : Report) (i : Issue) : Report :=
  let location := m.locate (some i.pointer) (some r.file)
  let entry : Entry :=
    { message := i.message ++ location.text base
      position := location.position
      pointer := some i.pointer }
  match i.severity with
  | .error => r.addError entry
  | .warning => r.addWarning entry

/-- Adds issues one after the other. -/
def addIssues (base : Option Files.Path) (m : Source.Map) (r : Report) (issues : List Issue) :
    Report :=
  issues.foldl (addIssue base m) r

end Report

end EntityGraph.Lint
