import EntityGraph.Number.Decimal

/-!
# Dates and moments

Calendar dates and moments of the day, as a document may write them, checked against the calendar.
A moment may carry its offset from universal time; two moments that do are compared as instants.
-/

namespace EntityGraph

/-- A calendar date. -/
structure Date where
  year : Nat
  month : Nat
  day : Nat
  deriving DecidableEq, Repr, Inhabited

/-- A date with a time of day. -/
structure Moment where
  date : Date
  hour : Nat
  minute : Nat
  second : Nat
  microsecond : Nat
  /-- Minutes ahead of universal time, if the moment says so. -/
  offset : Option Int
  deriving DecidableEq, Repr, Inhabited

/-- Why numbers do not make a date or a moment. -/
inductive CalendarError where
  | year (n : Nat)
  | month
  | day
  | hour
  | minute
  | second
  | offset (minutes : Int)
  deriving DecidableEq, Repr

/-! ## The calendar -/

def isLeapYear (y : Nat) : Bool := y % 4 == 0 && (y % 100 != 0 || y % 400 == 0)

def daysInMonth (y m : Nat) : Nat :=
  match m with
  | 4 | 6 | 9 | 11 => 30
  | 2 => if isLeapYear y then 29 else 28
  | _ => 31

namespace Date

/-- The date of three numbers, or what is wrong with them. -/
def check (d : Date) : Except CalendarError Date :=
  if d.year = 0 ∨ 9999 < d.year then .error (.year d.year)
  else if d.month = 0 ∨ 12 < d.month then .error .month
  else if d.day = 0 ∨ daysInMonth d.year d.month < d.day then .error .day
  else .ok d

/-- The days before a date, counted from the first of January of the year 1. -/
def dayNumber (d : Date) : Nat :=
  let y := d.year - 1
  let before := (List.range (d.month - 1)).foldl (fun n m ↦ n + daysInMonth d.year (m + 1)) 0
  y * 365 + y / 4 - y / 100 + y / 400 + before + (d.day - 1)

end Date

namespace Moment

/-- The moment of its numbers, or what is wrong with them. The offset stays within a day. -/
def check (t : Moment) : Except CalendarError Moment := do
  if let some m := t.offset then
    if 1440 ≤ m.natAbs then throw (.offset m)
  let _ ← t.date.check
  if 23 < t.hour then throw .hour
  if 59 < t.minute then throw .minute
  if 59 < t.second then throw .second
  return t

/-- The microseconds before a moment on its own clock, or before the instant it is in universal
time. -/
def microseconds (t : Moment) : Int :=
  let minutes : Int := ((t.date.dayNumber * 24 + t.hour) * 60 + t.minute : Nat)
  ((minutes - t.offset.getD 0) * 60 + t.second) * 1000000 + t.microsecond

/-- Two moments are the same when both or neither say their offset, and they are one instant. -/
def same (s t : Moment) : Bool :=
  s.offset.isSome == t.offset.isSome && s.microseconds == t.microseconds

end Moment

/-! ## Text -/

/-- A number with leading zeros up to a width. -/
def paddedDigits (width n : Nat) : List Char :=
  let ds := decimalDigits n
  List.replicate (width - ds.length) '0' ++ ds

/-- Numbers between commas. -/
def commaSeparated (ns : List Nat) : String :=
  ", ".intercalate (ns.map fun n ↦ String.ofList (decimalDigits n))

/-- A length of time in whole minutes: its days, which may be negative, and the seconds beyond
them. -/
def shownDuration (minutes : Int) : String :=
  let days := minutes.fdiv 1440
  let seconds := minutes.fmod 1440 * 60
  let parts :=
    (if days = 0 then [] else ["days=" ++ String.ofList (signedDigits days)]) ++
      (if seconds = 0 then [] else ["seconds=" ++ String.ofList (signedDigits seconds)])
  "datetime.timedelta(" ++ (if parts = [] then "0" else ", ".intercalate parts) ++ ")"

namespace CalendarError

def message : CalendarError → String
  | .year n => "year " ++ String.ofList (decimalDigits n) ++ " is out of range"
  | .month => "month must be in 1..12"
  | .day => "day is out of range for month"
  | .hour => "hour must be in 0..23"
  | .minute => "minute must be in 0..59"
  | .second => "second must be in 0..59"
  | .offset m => "offset must be a timedelta strictly between -timedelta(hours=24) and " ++
      "timedelta(hours=24), not " ++ shownDuration m ++ "."

end CalendarError

namespace Date

/-- Year, month and day with their usual widths. -/
def iso (d : Date) : String :=
  String.ofList (paddedDigits 4 d.year ++ '-' :: paddedDigits 2 d.month ++
    '-' :: paddedDigits 2 d.day)

/-- A date as messages show it. -/
def shown (d : Date) : String :=
  "datetime.date(" ++ commaSeparated [d.year, d.month, d.day] ++ ")"

end Date

namespace Moment

/-- An offset as hours and minutes after its sign. -/
def offsetText (minutes : Int) : List Char :=
  (if minutes < 0 then '-' else '+') :: paddedDigits 2 (minutes.natAbs / 60) ++
    ':' :: paddedDigits 2 (minutes.natAbs % 60)

/-- Date and time of day around a separator, the fraction only if there is one, and the offset. -/
def iso (separator : String) (t : Moment) : String :=
  t.date.iso ++ separator ++ String.ofList (paddedDigits 2 t.hour ++
    ':' :: paddedDigits 2 t.minute ++ ':' :: paddedDigits 2 t.second ++
    (if t.microsecond = 0 then [] else '.' :: paddedDigits 6 t.microsecond) ++
    (t.offset.map offsetText).getD [])

/-- A moment as messages show it: seconds and microseconds only from the last that is not zero. -/
def shown (t : Moment) : String :=
  let tail :=
    if t.microsecond ≠ 0 then [t.second, t.microsecond] else if t.second ≠ 0 then [t.second] else []
  let zone := match t.offset with
    | none => ""
    | some 0 => ", tzinfo=datetime.timezone.utc"
    | some m => ", tzinfo=datetime.timezone(" ++ shownDuration m ++ ")"
  let numbers := [t.date.year, t.date.month, t.date.day, t.hour, t.minute] ++ tail
  "datetime.datetime(" ++ commaSeparated numbers ++ zone ++ ")"

end Moment

end EntityGraph
