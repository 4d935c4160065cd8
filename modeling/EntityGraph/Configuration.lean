import EntityGraph.Files.Path
import EntityGraph.Log.LevelName
import EntityGraph.Log.Routing
import EntityGraph.Text.Blank

/-!
# Configuration

What can be set from outside by the variables of the environment: the levels of the log, whether
documents that were read are kept, and the directory that files are shown from.
-/

namespace EntityGraph

/-- The settings of a run. -/
structure Configuration where
  logLevel : Text := "INFO"
  /-- The level from which on records go to the stream of errors. -/
  printLevel : Text := "ERROR"
  caching : Bool := true
  /-- The directory that files are shown from, if there is one. -/
  sourceRoot : Option Text := none
  deriving DecidableEq, Repr

namespace Configuration

/-- What the names of the variables start with. -/
def variableStart : Text := "ENTITY_SCHEMA_"

/-- The words that switch something on. -/
def onWords : List Text := ["1", "true", "yes", "on"]

/-- Whether the text of a variable switches something on; blanks around it and its case do not
count. -/
def isOn (t : Text) : Bool := onWords.contains t.strip.lower

/-- The configuration of an environment. A source root that is empty is none. -/
def ofEnvironment (environment : List (Text × Text)) : Configuration :=
  let var (name : Text) : Option Text := environment.lookup (variableStart ++ name)
  { logLevel := (var "LOG_LEVEL").getD "INFO"
    printLevel := (var "PRINT_LEVEL").getD "ERROR"
    caching := isOn ((var "CACHE_ENABLED").getD "true")
    sourceRoot := (var "SOURCE_ROOT").filter (· ≠ []) }

/-- Where the records of a run go, if both of its levels can be set. The least level is set
first. -/
def routing (c : Configuration) : Except Log.LevelError Log.Routing :=
  match Log.Named.ofText c.logLevel .info, Log.Named.ofText c.printLevel .error with
  | .layout t, _ => .error (.unknown t)
  | .level _, .layout _ => .error .notComparable
  | .level least, .level grave => .ok (.ofLevels least grave)

/-- The directory that files are shown from. -/
def base (c : Configuration) : Option Files.Path := c.sourceRoot.map Files.Path.ofText

end Configuration

end EntityGraph
