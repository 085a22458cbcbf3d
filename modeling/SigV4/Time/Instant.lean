/-!
Instants of Coordinated Universal Time.

An instant is a date of the Gregorian calendar, extended to years before its start, and a time
of day to the nanosecond. The sixtieth second of a minute is a leap second; on the line of Unix
seconds it shares the place of the second before it, with more than a thousand million
nanoseconds to its name.
-/

namespace SigV4

/-- A year of 366 days. -/
def isLeapYear (year : Int) : Bool :=
  year % 4 = 0 && (year % 100 ≠ 0 || year % 400 = 0)

/-- The number of days of a month, zero if there is no such month. -/
def daysInMonth (year : Int) (month : Nat) : Nat :=
  if month = 2 then if isLeapYear year then 29 else 28
  else if month = 4 ∨ month = 6 ∨ month = 9 ∨ month = 11 then 30
  else if 1 ≤ month ∧ month ≤ 12 then 31
  else 0

/-- A day of the calendar. A year has nineteen bits, one of them for its sign; the first and the
last of these years are left out. -/
structure Date where
  year : Int
  month : Nat
  day : Nat
  year_range : -262143 ≤ year ∧ year ≤ 262142
  day_range : 1 ≤ day ∧ day ≤ daysInMonth year month
  deriving DecidableEq, Repr

namespace Date

/-- The day with these numbers, if the calendar has it. -/
def of? (year : Int) (month day : Nat) : Option Date :=
  if hy : -262143 ≤ year ∧ year ≤ 262142 then
    if hd : 1 ≤ day ∧ day ≤ daysInMonth year month then some ⟨year, month, day, hy, hd⟩ else none
  else none

/-- The number of days since 1970-01-01. Years are counted from March, so that the leap day is
their last, in cycles of four hundred years. -/
def number (d : Date) : Int :=
  let y := if d.month ≤ 2 then d.year - 1 else d.year
  let cycle := y.fdiv 400
  let yearOfCycle := y - cycle * 400
  let monthFromMarch : Int := if d.month ≤ 2 then d.month + 9 else d.month - 3
  let dayOfYear := (153 * monthFromMarch + 2) / 5 + d.day - 1
  cycle * 146097 + (yearOfCycle * 365 + yearOfCycle / 4 - yearOfCycle / 100 + dayOfYear) - 719468

/-- The day with that number. -/
def ofNumber? (n : Int) : Option Date :=
  let z := n + 719468
  let cycle := z.fdiv 146097
  let dayOfCycle := z - cycle * 146097
  let yearOfCycle :=
    (dayOfCycle - dayOfCycle / 1460 + dayOfCycle / 36524 - dayOfCycle / 146096) / 365
  let dayOfYear := dayOfCycle - (365 * yearOfCycle + yearOfCycle / 4 - yearOfCycle / 100)
  let monthFromMarch := (5 * dayOfYear + 2) / 153
  let day := dayOfYear - (153 * monthFromMarch + 2) / 5 + 1
  let month := if monthFromMarch < 10 then monthFromMarch + 3 else monthFromMarch - 9
  let year := yearOfCycle + cycle * 400 + if month ≤ 2 then 1 else 0
  of? year month.toNat day.toNat

end Date

/-- A point of time. -/
structure Instant where
  date : Date
  hour : Nat
  minute : Nat
  second : Nat
  nano : Nat
  hour_lt : hour < 24
  minute_lt : minute < 60
  second_le : second ≤ 60
  nano_lt : nano < 1000000000
  deriving DecidableEq, Repr

namespace Instant

/-- The instant at that time of a day, if the day has it. -/
def of? (date : Date) (hour minute second nano : Nat) : Option Instant :=
  if h : hour < 24 ∧ minute < 60 ∧ second ≤ 60 ∧ nano < 1000000000 then
    some ⟨date, hour, minute, second, nano, h.1, h.2.1, h.2.2.1, h.2.2.2⟩
  else none

/-- Seconds since the start of 1970, leap seconds left out. -/
def unixSeconds (t : Instant) : Int :=
  t.date.number * 86400 + t.hour * 3600 + t.minute * 60 + min t.second 59

/-- Nanoseconds since that second, more than a thousand million in a leap second. -/
def fraction (t : Instant) : Nat := if t.second = 60 then t.nano + 1000000000 else t.nano

/-- The instant with these Unix seconds and nanoseconds since then. -/
def ofUnix? (seconds : Int) (fraction : Nat) : Option Instant := do
  let date ← Date.ofNumber? (seconds.fdiv 86400)
  let s := (seconds.fmod 86400).toNat
  if fraction < 1000000000 then of? date (s / 3600) (s / 60 % 60) (s % 60) fraction
  else if s % 60 = 59 then of? date (s / 3600) (s / 60 % 60) 60 (fraction - 1000000000)
  else none

/-- The instant is more than that many seconds after the other one. -/
def isAfter (t u : Instant) (seconds : Int) : Bool :=
  u.unixSeconds + seconds < t.unixSeconds ||
    (u.unixSeconds + seconds = t.unixSeconds && u.fraction < t.fraction)

/-- The start of the second the instant is in. -/
def startOfSecond (t : Instant) : Instant := { t with nano := 0, nano_lt := by decide }

end Instant

end SigV4
