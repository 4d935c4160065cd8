import EntityGraph.Log.Level
import EntityGraph.Text.Case
import EntityGraph.Text.Quoted

/-!
# Names in the place of levels

What a name stands for where a level is to be set, whatever its case. A name that the log does not
know stands for a default. But one of the names that it knows is that of a layout, and a layout
cannot be set as a level.
-/

namespace EntityGraph.Log

/-- Why a level cannot be set. -/
inductive LevelError where
  /-- A text was set as the least level. -/
  | unknown (t : Text)
  /-- A text was set as the level at which the stream of errors begins, which is compared with
  another one. -/
  | notComparable
  deriving DecidableEq, Repr

namespace LevelError

/-- The word that names the kind of error in a report. -/
def label : LevelError → String
  | .unknown _ => "ValueError"
  | .notComparable => "TypeError"

def message : LevelError → Text
  | .unknown t => "Unknown level: " ++ t.quoted
  | .notComparable => "'>' not supported between instances of 'int' and 'str'"

end LevelError

/-- What a name stands for. -/
inductive Named where
  | level (l : Level)
  | layout (t : Text)
  deriving DecidableEq, Repr

namespace Named

/-- The name of a layout that the log knows, in capitals. -/
def layoutName : String := "BASIC_FORMAT"

/-- The layout of that name. -/
def namedLayout : Text := "%(levelname)s:%(name)s:%(message)s"

/-- What a name in any case stands for, or a level in place of a name that is not known. -/
def ofText (name : Text) (default : Level) : Named :=
  match name.capitals.toString? with
  | none => .level default
  | some s =>
    if s = layoutName then .layout namedLayout else .level ((Level.ofName? s).getD default)

end Named

end EntityGraph.Log
