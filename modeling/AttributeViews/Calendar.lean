/-!
# Dates, times of day and moments

The calendar is the proleptic Gregorian one, from year 1 to year 9999, with a resolution of one
microsecond.  A moment is a date and a time of day; it is *aware* if it also has an offset from
universal time, and only then it names an instant.

* `Date`, `TimeOfDay`, `Moment` — the three kinds of value.
* `Moment.instant` — the instant of an aware moment.
* `Date.iso`, `TimeOfDay.iso`, `Moment.iso` — their written forms.
-/

namespace AttributeViews

/-- A day of the calendar. -/
structure Date where
  year : Nat
  month : Nat
  day : Nat
deriving DecidableEq, Inhabited

/-- A time of day, to the microsecond. -/
structure TimeOfDay where
  hour : Nat
  minute : Nat
  second : Nat
  microsecond : Nat
deriving DecidableEq, Inhabited

/-- A date and a time of day, with the offset from universal time in microseconds if the moment is
aware. -/
structure Moment where
  date : Date
  time : TimeOfDay
  offset : Option Int
deriving DecidableEq, Inhabited

/-! ## The calendar -/

namespace Date

/-- Every fourth year, but of the full centuries only every fourth. -/
def isLeapYear (year : Nat) : Bool :=
  year % 4 == 0 && (year % 100 != 0 || year % 400 == 0)

/-- The length of a month. -/
def daysInMonth (year month : Nat) : Nat :=
  if month = 2 then (if isLeapYear year then 29 else 28)
  else if month = 4 ∨ month = 6 ∨ month = 9 ∨ month = 11 then 30
  else 31

/-- The date of a year, a month and a day, if there is that day. -/
def ofNumbers? (year month day : Nat) : Option Date :=
  if 1 ≤ year ∧ year ≤ 9999 ∧ 1 ≤ month ∧ month ≤ 12 ∧ 1 ≤ day ∧ day ≤ daysInMonth year month then
    some ⟨year, month, day⟩
  else none

/-- How many days the first months of a year have. -/
def daysOfMonths (year : Nat) : (months : Nat) → Nat
  | 0 => 0
  | months + 1 => daysOfMonths year months + daysInMonth year (months + 1)

/-- How many days have begun since the start of year 1. -/
def ordinal (d : Date) : Nat :=
  let years := d.year - 1
  365 * years + years / 4 - years / 100 + years / 400 + daysOfMonths d.year (d.month - 1) + d.day

end Date

namespace TimeOfDay

/-- The time of an hour, a minute, a second and a microsecond, if there is that time.  There are no
leap seconds. -/
def ofNumbers? (hour minute second microsecond : Nat) : Option TimeOfDay :=
  if hour < 24 ∧ minute < 60 ∧ second < 60 ∧ microsecond < 1000000 then
    some ⟨hour, minute, second, microsecond⟩
  else none

/-- The microseconds since midnight. -/
def sinceMidnight (t : TimeOfDay) : Nat :=
  ((t.hour * 60 + t.minute) * 60 + t.second) * 1000000 + t.microsecond

end TimeOfDay

namespace Moment

/-- Whether the offset from universal time is known. -/
def isAware (m : Moment) : Bool := m.offset.isSome

/-- The instant of an aware moment: microseconds in universal time. -/
def instant (m : Moment) : Option Int :=
  m.offset.map fun offset =>
    (m.date.ordinal : Int) * 86400000000 + m.time.sinceMidnight - offset

/-- Whether two moments are equal in worth: aware ones by their instant, the others by what is
written.  An aware moment never equals one that is not. -/
def same (a b : Moment) : Bool :=
  match a.instant, b.instant with
  | some s, some t => s == t
  | none, none => a == b
  | _, _ => false

end Moment

/-! ## Written forms -/

/-- A number with leading zeros up to a width. -/
def padded (width n : Nat) : String :=
  let digits := Nat.toDigits 10 n
  String.ofList (List.replicate (width - digits.length) '0' ++ digits)

/-- Year, month and day. -/
def Date.iso (d : Date) : String :=
  padded 4 d.year ++ "-" ++ padded 2 d.month ++ "-" ++ padded 2 d.day

/-- Seconds and, unless it is zero, their fraction in six digits. -/
def fractionIso (second microsecond : Nat) : String :=
  padded 2 second ++ (if microsecond = 0 then "" else "." ++ padded 6 microsecond)

/-- Hour, minute and second. -/
def TimeOfDay.iso (t : TimeOfDay) : String :=
  padded 2 t.hour ++ ":" ++ padded 2 t.minute ++ ":" ++ fractionIso t.second t.microsecond

/-- An offset: sign, hours and minutes, and seconds only if there are any. -/
def offsetIso (offset : Int) : String :=
  let size := offset.natAbs
  let seconds := size / 1000000
  let rest :=
    if size % 60000000 = 0 then "" else ":" ++ fractionIso (seconds % 60) (size % 1000000)
  (if offset < 0 then "-" else "+")
    ++ padded 2 (seconds / 3600) ++ ":" ++ padded 2 (seconds / 60 % 60) ++ rest

/-- Date and time with a `T` between them, and the offset of an aware moment. -/
def Moment.iso (m : Moment) : String :=
  m.date.iso ++ "T" ++ m.time.iso ++ (m.offset.map offsetIso).getD ""

end AttributeViews
