import EntityGraph.Log.Layout
import EntityGraph.Text.Encoding

/-!
# Log routing

Records go to one of two streams by their level: what is grave to the stream of errors, the rest to
the stream of output. Records below a least level go nowhere, and neither do those below the level
of debugging.
-/

namespace EntityGraph.Log

/-- Where text is written to. -/
inductive Stream where
  | out | err
  deriving DecidableEq, Repr

/-- What was written to the two streams. -/
structure Written where
  out : Text := []
  err : Text := []
  deriving DecidableEq, Repr

namespace Written

def append (a b : Written) : Written := ⟨a.out ++ b.out, a.err ++ b.err⟩

instance : Append Written := ⟨append⟩

/-- A text on a stream. -/
def text (s : Stream) (t : Text) : Written :=
  match s with
  | .out => { out := t }
  | .err => { err := t }

/-- A line on a stream. -/
def line (s : Stream) (t : Text) : Written := text s (t ++ "\n")

/-- One after the other. -/
def concat (ws : List Written) : Written := ws.foldl append {}

/-- Lines on the stream of output, up to the first that it cannot encode. -/
def printed (e : Text.Encoding) (lines : List Text) : Written :=
  concat ((lines.takeWhile e.accepts).map (line .out))

/-- What the streams take of a text: the stream of output leaves out what it cannot encode, and the
stream of errors writes it in escapes. -/
def encoded (e : Text.Encoding) (w : Written) : Written where
  out := if e.accepts w.out then w.out else []
  err := e.escaped w.err

end Written

/-- The levels that divide records between the streams. -/
structure Routing where
  /-- The least level that is handled at all. -/
  least : Level
  /-- The least level that goes to the stream of errors. -/
  grave : Level
  deriving DecidableEq, Repr

namespace Routing

/-- A routing by two levels; what is grave is so at the level of debugging at the lowest. -/
def ofLevels (least grave : Level) : Routing := ⟨least, max grave Level.debug⟩

/-- The routing of a channel below the root. Without a least level of its own it takes that of the
root, which is the level of warnings. -/
def inherited (r : Routing) : Routing :=
  if r.least = Level.notSet then { r with least := Level.warning } else r

/-- The streams of records of a level: one of them or none. -/
def streams (r : Routing) (level : Level) : List Stream :=
  if level < r.least ∨ level < Level.debug then []
  else if level < r.grave then [.out] else [.err]

/-- The levels at which the two streams begin. -/
def thresholds (r : Routing) : List (Stream × Level) := [(.out, Level.debug), (.err, r.grave)]

/-- Writes a record in a layout; one that does not fit is not written. -/
def write (r : Routing) (layout : Layout) (record : Record) : Written :=
  match layout.format? record with
  | some t => .concat ((r.streams record.level).map fun s ↦ .line s t)
  | none => {}

/-- Writes records one after the other. -/
def writeAll (r : Routing) (layout : Layout) (records : List Record) : Written :=
  .concat (records.map (r.write layout))

end Routing

end EntityGraph.Log
