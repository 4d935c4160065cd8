import EntityGraph.Value.Basic
import EntityGraph.Yaml.Cursor

/-!
# Dates and moments as they are written

A date is a year, a month and a day between dashes. A time of day may follow after a `T` or blanks,
with a fraction of the second and an offset from universal time.
-/

namespace EntityGraph.Yaml

/-- A date or a moment as it is written, not yet checked against the calendar. -/
structure Timestamp where
  date : Date
  /-- Whether month and day are written with two digits. -/
  isPadded : Bool
  /-- Hour, minute, second, microsecond and offset in minutes. -/
  time : Option (Nat × Nat × Nat × Nat × Option Int)
  deriving DecidableEq, Repr

namespace Timestamp

/-- A number of at least and at most so many digits at the head of a text. -/
def takeNumber (least most : Nat) (cs : List Char) : Option (Nat × List Char) :=
  let ds := (cs.take most).takeWhile Char.isDigit
  if least ≤ ds.length then some (digitsValue ds, cs.drop ds.length) else none

/-- A number after a mark. -/
def takeAfter (mark : Char) (least most : Nat) (cs : List Char) : Option (Nat × List Char) :=
  match cs with
  | [] => none
  | c :: rest => if c = mark then takeNumber least most rest else none

/-- The microseconds of a fraction of a second; further digits are cut off. -/
def microseconds (ds : List Char) : Nat := digitsValue ((ds ++ List.replicate 6 '0').take 6)

/-- The offset in minutes after a time of day: none, a `Z`, or hours and minutes after a sign. -/
def readOffset? (cs : List Char) : Option (Option Int) :=
  if cs.isEmpty then some none
  else
    match cs.dropWhile isSpaceOrTab with
    | ['Z'] => some (some 0)
    | sign :: rest =>
      if sign = '+' ∨ sign = '-' then do
        let (hours, rest) ← takeNumber 1 2 rest
        let (minutes, rest) ← if rest.isEmpty then some (0, []) else takeAfter ':' 2 2 rest
        let total : Int := (hours * 60 + minutes : Nat)
        if rest.isEmpty then some (some (if sign = '-' then -total else total)) else none
      else none
    | [] => none

/-- The time of day and its offset. -/
def readTime? (cs : List Char) : Option (Nat × Nat × Nat × Nat × Option Int) := do
  let (hour, cs) ← takeNumber 1 2 cs
  let (minute, cs) ← takeAfter ':' 2 2 cs
  let (second, cs) ← takeAfter ':' 2 2 cs
  let (fraction, cs) := match cs with
    | '.' :: rest => (rest.takeWhile Char.isDigit, rest.dropWhile Char.isDigit)
    | _ => ([], cs)
  let offset ← readOffset? cs
  return (hour, minute, second, microseconds fraction, offset)

/-- Reads a date or a moment. -/
def read? (cs : List Char) : Option Timestamp := do
  let (year, cs) ← takeNumber 4 4 cs
  let start := cs.length
  let (month, cs) ← takeAfter '-' 1 2 cs
  let (day, cs) ← takeAfter '-' 1 2 cs
  let date : Date := ⟨year, month, day⟩
  let isPadded := start - cs.length = 6
  match cs with
  | [] => return ⟨date, isPadded, none⟩
  | c :: rest =>
    if c = 'T' ∨ c = 't' then return ⟨date, isPadded, some (← readTime? rest)⟩
    else if isSpaceOrTab c then
      return ⟨date, isPadded, some (← readTime? (rest.dropWhile isSpaceOrTab))⟩
    else none

/-- Whether a plain scalar of this form is a date or a moment. A date alone has to be padded. -/
def isForm (cs : List Char) : Bool :=
  match read? cs with
  | some t => t.isPadded || t.time.isSome
  | none => false

/-- The date or the moment, checked against the calendar. -/
def toValue (t : Timestamp) : Except CalendarError Value :=
  match t.time with
  | none => t.date.check.map .date
  | some (hour, minute, second, microsecond, offset) =>
    (Moment.check ⟨t.date, hour, minute, second, microsecond, offset⟩).map .moment

end Timestamp

end EntityGraph.Yaml
