import EntityGraph.Log.Record
import EntityGraph.Log.Slot
import EntityGraph.Text.DecimalDigit
import EntityGraph.Text.Word

/-!
# Log layout

How a record is written as text. A layout is a text with slots in it; two percent signs in a row
stand for one. A text without a slot for a field, in the usual order of its parts, is refused. A
layout may be accepted and yet not fit: then records are not written at all.
-/

namespace EntityGraph.Log

/-- A part of a layout. -/
inductive Piece where
  | text (t : Text)
  | slot (s : Slot)
  deriving DecidableEq, Repr

/-- What a record has under each name. A record carries no arguments, and it is written where the
program starts. -/
def Record.contents (r : Record) : List (Text × Content) :=
  [("name", .text r.channel), ("msg", .text r.message), ("args", .word "()"),
    ("levelname", .text r.level.name), ("levelno", .number r.level),
    ("message", .text r.message), ("exc_info", .word "None"), ("exc_text", .word "None"),
    ("stack_info", .word "None"), ("threadName", .text "MainThread"),
    ("processName", .text "MainProcess")]

/-- The text of a part of a record, if the record has what it asks for. -/
def Piece.write? (r : Record) : Piece → Option Text
  | .text t => some t
  | .slot s => (r.contents.lookup s.key).bind s.write?

/-- A layout as a list of its parts, if it has a text that can be read as such. -/
abbrev Layout := Option (List Piece)

namespace Layout

/-! ## Reading -/

/-- The letters of forms in either case. Three more letters have one of them as their other case. -/
def formLetters : List Char := "diouxefgcrsa%\u0130\u0131\u017f".toList

/-- Drops a star or the digits at the head of a text. -/
def dropMeasure : Text → Text
  | .char '*' :: rest => rest
  | t => t.dropWhile (CodePoint.isCharOf fun c ↦ (Text.decimal? c).isSome)

/-- Drops a point with a star or digits after it. -/
def dropPrecision : Text → Text
  | .char '.' :: rest => if dropMeasure rest = rest then .char '.' :: rest else dropMeasure rest
  | t => t

/-- Whether a text goes on, after a percent sign and a parenthesis, as a slot for a field in the
usual order of its parts: name, flags, width, precision and form. -/
def startsUsual (t : Text) : Bool :=
  match t.dropWhile (CodePoint.isCharOf Text.isWordChar) with
  | .char ')' :: rest =>
    rest.length + 1 < t.length &&
      (match dropPrecision (dropMeasure (rest.dropWhile (CodePoint.isCharOf Slot.isFlag))) with
      | .char letter :: _ => formLetters.contains letter.toLower
      | _ => false)
  | _ => false

/-- Whether there is a slot in the usual order anywhere in a text. -/
def hasUsual : Text → Bool
  | [] => false
  | x :: rest =>
    (match x, rest with
      | .char '%', .char '(' :: more => startsUsual more
      | _, _ => false) || hasUsual rest

/-- The parts of a text. Each step of the bound reads one. -/
def readPieces : Nat → Text → Option (List Piece)
  | 0, _ => none
  | _ + 1, [] => some []
  | bound + 1, .char '%' :: .char '%' :: rest =>
    (readPieces bound rest).map (.text "%" :: ·)
  | bound + 1, .char '%' :: rest => do
    let (slot, rest) ← Slot.read? rest
    return .slot slot :: (← readPieces bound rest)
  | bound + 1, x :: rest => (readPieces bound rest).map (.text [x] :: ·)

/-- Reads a layout. The empty text stands for the message alone. -/
def ofText? (t : Text) : Option Layout :=
  let t : Text := if t.isEmpty then "%(message)s" else t
  if hasUsual t then some (readPieces (t.length + 1) t) else none

/-- What is said of a text that is refused. -/
def refusal (t : Text) : Text := "Invalid format '" ++ t ++ "' for '%' style"

/-- The layout that is used unless another is asked for: channel, level and message. -/
def standard : Layout :=
  let field (name : Text) : Piece := .slot { key := name, form := .plain }
  some [field "name", .text " - ", field "levelname", .text " - ", field "message"]

/-! ## Writing -/

/-- The text of a record, if the layout fits: its line, and below it the fault that it reports. -/
def format? (l : Layout) (r : Record) : Option Text := do
  let parts ← (← l).mapM (Piece.write? r)
  let line := parts.flatten
  match r.trace with
  | none => return line
  | some fault =>
    let gap : Text := if line.getLast? = some (.char '\n') then [] else "\n"
    return line ++ gap ++ "Traceback: " ++ fault

end Layout

end EntityGraph.Log
