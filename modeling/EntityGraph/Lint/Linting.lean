import EntityGraph.Check.Dropped
import EntityGraph.Check.References
import EntityGraph.Check.Structure
import EntityGraph.Documents
import EntityGraph.Lint.Report

/-!
# Linting

All checks on documents. A document is checked for its structure and, if it describes a project, for
its references; a check that breaks off leaves what was found before it and one error of its own. A
file that cannot be loaded has one error and nothing else.
-/

namespace EntityGraph.Lint

/-- The issues of a document's structure: violations of the schema, then the nodes that loading
leaves out. -/
def structureOf (document : Value) : Query (List Issue) := do
  let violations ← Query.ofExcept (structureIssues Schema.projectSchema document)
  let dropped ← if document.isMap then droppedIssues document else pure []
  return violations ++ dropped

/-- The issues of a document's references, if it describes a project. -/
def referencesOf (file : Files.Path) (document : Value) : Query (List Issue) := do
  match ← Project.load document with
  | none => return []
  | some project =>
    let g := Graph.ofProject project
    Query.note (.checkingReferences g.project.flatEntities.length file.text)
    referenceIssues g

/-- The report after a check that a fault broke off. -/
def breakOff (r : Report) (fault : Fault) : Logged Report := do
  Logged.note (.lintFailed r.file.text fault)
  return r.addError { message := "Unexpected error during linting: " ++ fault.message }

/-- The report of a document that was loaded from a file. -/
def reportOf (base : Option Files.Path) (file : Files.Path) (l : Loaded) : Logged Report := do
  let r : Report := { file }
  match ← (structureOf l.document).outcome with
  | .error fault => breakOff r fault
  | .ok structural =>
    let r := r.addIssues base l.sourceMap structural
    match ← (referencesOf file l.document).outcome with
    | .error fault => breakOff r fault
    | .ok references => return r.addIssues base l.sourceMap references

section

variable (words : Yaml.Wording) (base : Option Files.Path) (t : Files.Tree)

/-- The report of a file. An error that is not about the document has no report. -/
def lintFile (file : Files.Path) : ExceptT LoadError Logged Report := ExceptT.mk do
  match (← Reader.load { caching := false } t file).1 with
  | .ok l => return .ok (← reportOf base file l)
  | .error e =>
    if e.isReported then return .ok (({ file } : Report).addError { message := e.message words })
    else return .error e

/-- The reports of files, one after the other. -/
def lintFiles (files : List Files.Path) : ExceptT LoadError Logged (List Report) :=
  files.mapM (lintFile words base t)

end

end EntityGraph.Lint
