import EntityGraph.Json.Printer
import EntityGraph.Lint.Report

/-!
# The output of reports

Reports as text in three formats: for people, as JSON, and as the annotations of a workflow.
-/

namespace EntityGraph.Lint

/-- The formats of output. -/
inductive Format where
  | human | json | annotations
  deriving DecidableEq, Repr

namespace Format

def all : List Format := [.human, .json, .annotations]

def name : Format → String
  | .human => "human"
  | .json => "json"
  | .annotations => "github-actions"

def ofName? (t : Text) : Option Format := all.find? fun f ↦ (f.name : Text) == t

end Format

/-! ## JSON -/

/-- A number under a key, if it is known. -/
def numberEntry (key : Text) (n : Option Int) : List (Value × Value) :=
  match n with
  | some n => [(.str key, .int n)]
  | none => []

def Entry.toValue (e : Entry) : Value :=
  .map ((.str "message", .str e.message) :: numberEntry "line" e.position.line ++
    numberEntry "column" e.position.column ++
    (match e.pointer with
      | some p => [(.str "yaml_path", .str p)]
      | none => []))

def Report.toValue (r : Report) : Value :=
  .map [(.str "file", .str r.file.text), (.str "errors", .seq (r.errors.map Entry.toValue)),
    (.str "warnings", .seq (r.warnings.map Entry.toValue))]

/-- The number of entries in all reports. -/
def total (part : Report → List Entry) (rs : List Report) : Nat :=
  (rs.flatMap part).length

/-- All reports with their totals. -/
def summary (rs : List Report) : Value :=
  .map [(.str "files", .int rs.length),
    (.str "errors", .int (total Report.errors rs)),
    (.str "warnings", .int (total Report.warnings rs)),
    (.str "results", .seq (rs.map Report.toValue))]

/-! ## Annotations -/

/-- An annotation of a kind; without a line it is about the first. -/
def annotate (kind : String) (file : Files.Path) (e : Entry) : Text :=
  let column : Text := match e.position.column with
    | some c => ",col=" ++ toString c
    | none => []
  "::" ++ kind ++ " file=" ++ file.text ++ ",line=" ++ toString (e.position.line.getD 1) ++
    column ++ "::" ++ e.message

def Report.annotations (r : Report) : List Text :=
  r.errors.map (annotate "error" r.file) ++ r.warnings.map (annotate "warning" r.file)

/-! ## Text for people -/

/-- An entry under a label, with its line. -/
def entryLine (label : String) (e : Entry) : Text :=
  let line : Text := match e.position.line with
    | some n => ":" ++ toString n
    | none => []
  "  " ++ label ++ line ++ ": " ++ e.message

/-- The lines of a report: none if nothing was found. -/
def Report.lines (r : Report) : List Text :=
  if r.errors.isEmpty && r.warnings.isEmpty then []
  else
    ("\n" ++ r.file.text ++ ":") ::
      (r.errors.map (entryLine "ERROR") ++ r.warnings.map (entryLine "WARNING"))

/-- The lines of all reports in a format. -/
def Format.lines (f : Format) (rs : List Report) : List Text :=
  match f with
  | .human => rs.flatMap Report.lines
  | .json => [Json.pretty (summary rs)]
  | .annotations => rs.flatMap Report.annotations

end EntityGraph.Lint
