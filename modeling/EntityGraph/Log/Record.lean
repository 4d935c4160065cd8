import EntityGraph.Log.Level
import EntityGraph.Text.Basic

/-!
# Log records
-/

namespace EntityGraph.Log

/-- One record: its level, the channel it was written to, its message, and the name of the fault
that it reports, if it reports one. -/
structure Record where
  level : Level
  channel : Text
  message : Text
  trace : Option String := none
  deriving DecidableEq, Repr

end EntityGraph.Log
