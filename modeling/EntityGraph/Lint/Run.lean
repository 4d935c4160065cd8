import EntityGraph.Configuration
import EntityGraph.Files.Search
import EntityGraph.Lint.Linting
import EntityGraph.Lint.Options

/-!
# A run of the linter

From a command line and a file tree to what is written and the exit status: zero if every document
was found without errors, one if there were errors or no documents, two if the command line is
wrong. A run is broken off by a file that it may not look for and by a line of the report that the
stream of output cannot encode; what was written before stays.
-/

namespace EntityGraph.Lint

open Log (Written)

/-- What breaks a run off. -/
inductive RunError where
  | level (e : Log.LevelError)
  | load (e : LoadError)
  | encoding (e : Text.Encoding.Error)

namespace RunError

/-- The word that names the kind of error in a report. -/
def label : RunError → String
  | .level e => e.label
  | .load e => e.label
  | .encoding _ => Text.Encoding.Error.label

def message (words : Yaml.Wording) : RunError → Text
  | .level e => e.message
  | .load e => e.message words
  | .encoding e => e.message

end RunError

/-- What a run does: what it writes, and its exit status or the error that breaks it off. -/
structure Outcome where
  written : Written
  status : Except RunError Nat

/-- What a report writes after everything else if there are no errors: a word to people, if the
format is asked for at all. -/
def closing (o : Options) : Written :=
  if o.format = some .human then .line .out "Lint succeeded with no errors." else {}

/-- The lines that are printed of reports. -/
def Options.lines (o : Options) (rs : List Report) : List Text := (o.format.getD .human).lines rs

section

variable (enc : Text.Encoding) (words : Yaml.Wording) (c : Configuration) (routing : Log.Routing)
  (t : Files.Tree) (o : Options)

/-- What the log writes of notices. -/
def logged (notices : List Notice) : Written :=
  let records := (notices.filter Notice.isWritable).map Notice.record
  .concat (records.map fun r ↦ (routing.write Log.Layout.standard r).encoded enc)

/-- The outcome of linting the documents that were found. -/
def runDocuments (files : List Files.Path) : Outcome :=
  let linted := (lintFiles words c.base t files).run
  let log := logged enc routing linted.notices
  match linted.value with
  | .error e => ⟨log, .error (.load e)⟩
  | .ok reports =>
    let results := .printed enc (o.lines reports)
    match (o.lines reports).findSome? enc.refusal? with
    | some e => ⟨log ++ results, .error (.encoding e)⟩
    | none =>
      if 0 < total Report.errors reports then ⟨log ++ results, .ok 1⟩
      else ⟨log ++ results ++ closing o, .ok 0⟩

/-- The outcome of a search for documents and of linting what it found. -/
def runSearch : Outcome :=
  let search := t.projectDocuments o.searched
  let warned := Written.concat (search.warnings.map fun w ↦ .line .err (enc.escaped w.message))
  match search.documents with
  | .error e => ⟨warned, .error (.load (.noAccess e))⟩
  | .ok [] => ⟨warned ++ .line .err "No project documents found.", .ok 1⟩
  | .ok files =>
    let outcome := runDocuments enc words c routing t o files
    { outcome with written := warned ++ outcome.written }

/-- The outcome of what a command line asks for. -/
def runOptions : Outcome :=
  let c := if o.verbose then { c with logLevel := "DEBUG" } else c
  match c.routing with
  | .error e => ⟨{}, .error (.level e)⟩
  | .ok routing => runSearch enc words c routing t o

/-- The outcome of a command line, given the encoding of the streams and the words in which flaws of
documents are told. -/
def run (arguments : List Text) : Outcome :=
  match readOptions arguments with
  | .error e => ⟨.text .err (enc.escaped e.text), .ok 2⟩
  | .ok .help => ⟨.text .out helpText, .ok 0⟩
  | .ok (.lint o) => runOptions enc words c t o

end

end EntityGraph.Lint
