import BootConfig.Number.Shortest

/-!
# Calendar

Dates of the proleptic Gregorian calendar and points in time on them, with or without an offset
from UTC.

* `Date.ofParts`, `Timestamp.ofParts`: the date or time with given parts, or the first part that is
  out of range.
* `Timestamp.same`: two times with offsets are equal if they are the same instant; a time with an
  offset differs from every time without one.
* `Date.iso`, `Timestamp.iso`: the ISO 8601 text.
-/

namespace BootConfig

/-- Why parts make no date, time or offset. -/
inductive CalendarFault where
  | year (given : Nat)
  | month
  | day
  | hour
  | minute
  | second
  /-- An offset in minutes of a day or more. -/
  | offset (minutes : Int)

namespace Calendar

def isLeap (year : Nat) : Bool := year % 4 == 0 && (year % 100 != 0 || year % 400 == 0)

def daysInMonth (year month : Nat) : Nat :=
  if month == 2 then (if isLeap year then 29 else 28)
  else if month == 4 || month == 6 || month == 9 || month == 11 then 30
  else 31

def number (n : Nat) : String := String.ofList (Shortest.natDigits n)

/-- The decimal text of a number with at least `width` digits. -/
def padded (width n : Nat) : String :=
  let ds := Shortest.natDigits n
  String.ofList (List.replicate (width - ds.length) '0' ++ ds)

/-- A length of time as whole days and the seconds that remain, as messages show it. -/
def lengthText (minutes : Int) : String :=
  let days := minutes.fdiv 1440
  let seconds := (minutes.fmod 1440) * 60
  let dayPart := s!"days={days}"
  let secondPart := s!"seconds={seconds}"
  let body :=
    if days != 0 && seconds != 0 then s!"{dayPart}, {secondPart}"
    else if days != 0 then dayPart
    else if seconds != 0 then secondPart
    else "0"
  s!"datetime.timedelta({body})"

end Calendar

def CalendarFault.message : CalendarFault → String
  | .year given => s!"year {given} is out of range"
  | .month => "month must be in 1..12"
  | .day => "day is out of range for month"
  | .hour => "hour must be in 0..23"
  | .minute => "minute must be in 0..59"
  | .second => "second must be in 0..59"
  | .offset minutes =>
    "offset must be a timedelta strictly between -timedelta(hours=24) and timedelta(hours=24), " ++
      s!"not {Calendar.lengthText minutes}."

/-- A day of the calendar. -/
structure Date where
  year : Nat
  month : Nat
  day : Nat
deriving DecidableEq, Inhabited

namespace Date

def ofParts (year month day : Nat) : Except CalendarFault Date :=
  if year == 0 || 9999 < year then .error (.year year)
  else if month == 0 || 12 < month then .error .month
  else if day == 0 || Calendar.daysInMonth year month < day then .error .day
  else .ok ⟨year, month, day⟩

/-- Number of days from the first day of year 1. -/
def ordinal (d : Date) : Nat :=
  let y := d.year - 1
  let before := (List.range (d.month - 1)).foldl
    (fun days m => days + Calendar.daysInMonth d.year (m + 1)) 0
  y * 365 + y / 4 - y / 100 + y / 400 + before + (d.day - 1)

def iso (d : Date) : String :=
  s!"{Calendar.padded 4 d.year}-{Calendar.padded 2 d.month}-{Calendar.padded 2 d.day}"

def quoted (d : Date) : String := s!"datetime.date({d.year}, {d.month}, {d.day})"

end Date

/-- A time on a day, with the offset from UTC in minutes if it has one. -/
structure Timestamp where
  date : Date
  hour : Nat
  minute : Nat
  second : Nat
  microsecond : Nat
  offset : Option Int
deriving DecidableEq, Inhabited

namespace Timestamp

/-- An offset has to be shorter than a day. -/
def checkOffset (minutes : Int) : Except CalendarFault Int :=
  if -1440 < minutes && minutes < 1440 then .ok minutes else .error (.offset minutes)

def ofParts (year month day hour minute second microsecond : Nat) (offset : Option Int) :
    Except CalendarFault Timestamp := do
  let offset ← offset.mapM checkOffset
  let date ← Date.ofParts year month day
  if 23 < hour then .error .hour
  else if 59 < minute then .error .minute
  else if 59 < second then .error .second
  else .ok ⟨date, hour, minute, second, microsecond, offset⟩

/-- Microseconds since the start of year 1, by the clock that shows the time. -/
def clockTime (t : Timestamp) : Int :=
  let seconds := ((t.date.ordinal * 24 + t.hour) * 60 + t.minute) * 60 + t.second
  ((seconds * 1000000 + t.microsecond : Nat) : Int)

/-- Microseconds since the start of year 1 in UTC, for a time with an offset. -/
def instant? (t : Timestamp) : Option Int :=
  t.offset.map fun minutes => t.clockTime - minutes * 60000000

def same (s t : Timestamp) : Bool :=
  match s.instant?, t.instant? with
  | some i, some j => i == j
  | none, none => s == t
  | _, _ => false

/-- An offset as `+hh:mm`. -/
def offsetText (minutes : Int) : String :=
  let n := minutes.natAbs
  let sign := if minutes < 0 then "-" else "+"
  s!"{sign}{Calendar.padded 2 (n / 60)}:{Calendar.padded 2 (n % 60)}"

def iso (t : Timestamp) : String :=
  let clock := s!"{Calendar.padded 2 t.hour}:{Calendar.padded 2 t.minute}:{Calendar.padded 2 t.second}"
  let fraction := if t.microsecond == 0 then "" else s!".{Calendar.padded 6 t.microsecond}"
  let zone := match t.offset with
    | none => ""
    | some minutes => offsetText minutes
  s!"{t.date.iso}T{clock}{fraction}{zone}"

/-- A time as messages quote it: seconds and microseconds only as far as they are needed. -/
def quoted (t : Timestamp) : String :=
  let day := s!"{t.date.year}, {t.date.month}, {t.date.day}, {t.hour}, {t.minute}"
  let fine :=
    if t.microsecond != 0 then s!", {t.second}, {t.microsecond}"
    else if t.second != 0 then s!", {t.second}"
    else ""
  let zone := match t.offset with
    | none => ""
    | some 0 => ", tzinfo=datetime.timezone.utc"
    | some minutes => s!", tzinfo=datetime.timezone({Calendar.lengthText minutes})"
  s!"datetime.datetime({day}{fine}{zone})"

end Timestamp

end BootConfig
