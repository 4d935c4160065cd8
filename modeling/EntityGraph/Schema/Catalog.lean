import EntityGraph.Files.Tree
import EntityGraph.Json.Reader
import EntityGraph.Schema.ProjectSchema
import EntityGraph.Text.Utf8

/-!
# The catalog of schemas

Schemas by the name of the kind of document that they describe. A name is a path without the end
`.json`. Usually it starts in the directory of the schemas that are built in, which is one of
several directories beside each other; a name that starts with a point and a slash is one of a file
of the user. A schema that was found is kept, so that asking again answers the same without looking
again.
-/

namespace EntityGraph.Schema

/-- Why there is no schema of a name. -/
inductive CatalogError where
  | notFound (name : Text)
  | noAccess (e : Files.AccessError)
  | isDirectory (file : Text)
  | notText (e : Text.Utf8.Error)
  | notJson (file : Text) (e : Json.Error)
  deriving DecidableEq, Repr

namespace CatalogError

/-- The word that names the kind of error in a report. -/
def label : CatalogError → String
  | .notFound _ => "FileNotFoundError"
  | .noAccess e => e.label
  | .isDirectory _ => "IsADirectoryError"
  | .notText _ => "UnicodeDecodeError"
  | .notJson _ e => if e.problem.isSyntactic then "JSONDecodeError" else "ValueError"

def message : CatalogError → Text
  | .notFound name => "Schema file not found for " ++ name
  | .noAccess e => e.message
  | .isDirectory file => "[Errno 21] Is a directory: " ++ file.quoted
  | .notText e => e.message
  | .notJson file e =>
    if e.problem.isSyntactic then "Invalid JSON in schema file " ++ file ++ ": " ++ e.message
    else e.message

end CatalogError

/-- The schemas that were found so far. -/
structure Catalog where
  found : List (Text × Value) := []
  deriving Repr

namespace Catalog

/-! ## Schemas that are built in -/

/-- The directories around the schemas that are built in, of which there is one. -/
def builtInTree : Files.Tree where
  top :=
    .directory [("entity_schema", .directory
      [("schema", .directory [("project.json", .file [])]), ("file_io", .directory []),
        ("linter", .directory []), ("models", .directory []), ("parsing", .directory []),
        ("utils", .directory [])])]
  workingDirectory := ["entity_schema", "schema"]

/-- The schema that is built in under a name. -/
def builtIn (name : Text) : Except CatalogError Value :=
  match builtInTree.find (.ofText (name ++ ".json")) with
  | .ok (some (.file _)) => .ok projectSchema
  | .ok _ => .error (.notFound name)
  | .error e => .error (.noAccess e)

/-! ## Schemas of files -/

/-- The file of a name that is one of a file. -/
def fileOf? (name : Text) : Option Files.Path :=
  match name with
  | .char '.' :: .char '/' :: _ => some (.ofText (name ++ ".json"))
  | _ => none

/-- Reads the schema in the bytes of a file. -/
def readBytes (file : Text) (bytes : List UInt8) : Except CatalogError Value := do
  let text ← (Text.Utf8.decode bytes).mapError .notText
  (Json.read (String.ofList (Text.unifyLineEnds text))).mapError (.notJson file)

/-- The schema in a file. -/
def ofFile (t : Files.Tree) (name : Text) (p : Files.Path) : Except CatalogError Value :=
  let file : Text := "./" ++ p.text
  match t.find p with
  | .error e => .error (.noAccess e)
  | .ok none => .error (.notFound name)
  | .ok (some e) =>
    if !t.isReadable p then .error (.noAccess ⟨.denied, p⟩)
    else
      match e with
      | .file bytes => readBytes file bytes
      | .directory _ => .error (.isDirectory file)
      | .device => .error (.notFound name)

/-! ## Both -/

/-- Looks a schema up that is not yet found. -/
def search (t : Files.Tree) (name : Text) : Except CatalogError Value :=
  match fileOf? name with
  | some p => ofFile t name p
  | none => builtIn name

/-- The schema of a name, and the catalog that keeps it. -/
def load (c : Catalog) (t : Files.Tree) (name : Text) : Except CatalogError Value × Catalog :=
  match c.found.lookup name with
  | some schema => (.ok schema, c)
  | none =>
    match search t name with
    | .ok schema => (.ok schema, ⟨(name, schema) :: c.found⟩)
    | .error e => (.error e, c)

end Catalog

end EntityGraph.Schema
