/-!
# Dates and times of day

The dates and date-times that a document can hold. A `Date` carries the proof that it exists in the
calendar, a `DateTime` that its clock reading does; `Date.check` and `DateTime.check` build them or name
the first part that is out of range. A date-time may carry its distance from universal time, and two
that do are the same instant when they agree after that distance is taken off.
-/

namespace TestPlan

/-- Why a date or a time of day does not exist. -/
inductive CalendarFault
  | year (year : Nat)
  | month
  | day
  | hour
  | minute
  | second
  /-- the distance from universal time, in minutes, is a day or more -/
  | offset (minutes : Int)
  deriving DecidableEq

namespace Calendar

/-- Whether a year has a 29th of February. -/
def isLeap (year : Nat) : Bool := year % 4 == 0 && (year % 100 != 0 || year % 400 == 0)

/-- The number of days of a month. -/
def daysIn (year month : Nat) : Nat :=
  if month = 2 then (if isLeap year then 29 else 28)
  else if month = 4 ∨ month = 6 ∨ month = 9 ∨ month = 11 then 30
  else 31

/-- A number in decimal with at least the given count of digits. -/
def padded (width n : Nat) : String :=
  let digits := Nat.toDigits 10 n
  String.ofList (List.replicate (width - digits.length) '0' ++ digits)

end Calendar

/-- A day of the years 1 to 9999. -/
structure Date where
  year : Nat
  month : Nat
  day : Nat
  year_range : 1 ≤ year ∧ year ≤ 9999
  month_range : 1 ≤ month ∧ month ≤ 12
  day_range : 1 ≤ day ∧ day ≤ Calendar.daysIn year month
  deriving DecidableEq

namespace Date

/-- The date with these parts, or the first part that is out of range. -/
def check (year month day : Nat) : Except CalendarFault Date :=
  if hy : 1 ≤ year ∧ year ≤ 9999 then
    if hm : 1 ≤ month ∧ month ≤ 12 then
      if hd : 1 ≤ day ∧ day ≤ Calendar.daysIn year month then .ok ⟨year, month, day, hy, hm, hd⟩
      else .error .day
    else .error .month
  else .error (.year year)

/-- A date in the order year, month, day. -/
def text (d : Date) : String :=
  Calendar.padded 4 d.year ++ "-" ++ Calendar.padded 2 d.month ++ "-" ++ Calendar.padded 2 d.day

/-- The number of days from the first day of the year 1. -/
def ordinal (d : Date) : Nat :=
  let before := d.year - 1
  let months := (List.range (d.month - 1)).map fun m => Calendar.daysIn d.year (m + 1)
  before * 365 + before / 4 - before / 100 + before / 400 + months.foldr (· + ·) 0 + (d.day - 1)

end Date

/-- A distance from universal time in minutes, less than a day either way. -/
structure Offset where
  minutes : Int
  minutes_range : -1440 < minutes ∧ minutes < 1440
  deriving DecidableEq

namespace Offset

/-- The distance of this many minutes, unless it is a day or more. -/
def check (minutes : Int) : Except CalendarFault Offset :=
  if h : -1440 < minutes ∧ minutes < 1440 then .ok ⟨minutes, h⟩ else .error (.offset minutes)

/-- A distance as sign, hours and minutes. -/
def text (o : Offset) : String :=
  (if o.minutes < 0 then "-" else "+") ++ Calendar.padded 2 (o.minutes.natAbs / 60) ++ ":" ++
    Calendar.padded 2 (o.minutes.natAbs % 60)

end Offset

/-- A date with a reading of the clock, and its distance from universal time if known. -/
structure DateTime where
  date : Date
  hour : Nat
  minute : Nat
  second : Nat
  microsecond : Nat
  offset : Option Offset
  clock_range : hour < 24 ∧ minute < 60 ∧ second < 60 ∧ microsecond < 1000000
  deriving DecidableEq

namespace DateTime

/-- The date-time with these parts, or the first part of the clock reading that is out of range. -/
def check (date : Date) (hour minute second : Nat) (microsecond : Fin 1000000)
    (offset : Option Offset) : Except CalendarFault DateTime :=
  if hh : hour < 24 then
    if hm : minute < 60 then
      if hs : second < 60 then
        .ok ⟨date, hour, minute, second, microsecond, offset, hh, hm, hs, microsecond.isLt⟩
      else .error .second
    else .error .minute
  else .error .hour

/-- Date and time with a blank between them; microseconds are written when there are any. -/
def text (t : DateTime) : String :=
  t.date.text ++ " " ++ Calendar.padded 2 t.hour ++ ":" ++ Calendar.padded 2 t.minute ++ ":" ++
    Calendar.padded 2 t.second ++
    (if t.microsecond = 0 then "" else "." ++ Calendar.padded 6 t.microsecond) ++
    (match t.offset with | none => "" | some o => o.text)

/-- Microseconds since the start of the year 1, in universal time when the distance to it is known. -/
def instant (t : DateTime) : Int :=
  let minutes : Int := (t.date.ordinal * 24 + t.hour) * 60 + t.minute - (t.offset.map (·.minutes)).getD 0
  (minutes * 60 + t.second) * 1000000 + t.microsecond

/-- Whether two date-times name the same instant; one with a known distance from universal time never
equals one without. -/
def sameInstant (t u : DateTime) : Bool := t.offset.isSome == u.offset.isSome && t.instant == u.instant

end DateTime
end TestPlan
