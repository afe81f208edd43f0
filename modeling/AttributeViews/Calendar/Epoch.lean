import AttributeViews.Calendar

/-!
# Moments by the clock

A clock counts the microseconds since the beginning of 1970 in universal time.  A count of days is
taken apart by the periods of the calendar: 400 years, a century, four years and a year, of which
the last century of the first and the last year of the third are one day longer than the others.

* `Date.ofOrdinal` — the day of a number, the inverse of `Date.ordinal`.
* `Moment.ofClock` — the moment that a clock shows.
-/

namespace AttributeViews

namespace Date

/-- Month and day of the `n`-th day, from zero, of the months from `month` on; `months` of them are
left to choose from. -/
def ofDayOfYear (year month : Nat) : (months n : Nat) → Date
  | 0, n => ⟨year, month, n + 1⟩
  | months + 1, n =>
      let length := daysInMonth year month
      if n < length then ⟨year, month, n + 1⟩
      else ofDayOfYear year (month + 1) months (n - length)

/-- The `n`-th day of the calendar, the first of year 1 being the first. -/
def ofOrdinal (n : Nat) : Date :=
  let day := n - 1
  let fourHundreds := day / 146097
  let day := day % 146097
  let centuries := min 3 (day / 36524)
  let day := day - centuries * 36524
  let fours := day / 1461
  let day := day % 1461
  let years := min 3 (day / 365)
  let day := day - years * 365
  ofDayOfYear (fourHundreds * 400 + centuries * 100 + fours * 4 + years + 1) 1 11 day

end Date

/-- The time that is this many microseconds after midnight. -/
def TimeOfDay.ofMicroseconds (n : Nat) : TimeOfDay :=
  ⟨n / 3600000000, n / 60000000 % 60, n / 1000000 % 60, n % 1000000⟩

/-- The number of the day with which 1970 begins. -/
def clockStart : Nat := Date.ordinal ⟨1970, 1, 1⟩

/-- The moment, in universal time, that is this many microseconds after the beginning of 1970. -/
def Moment.ofClock (microseconds : Nat) : Moment :=
  ⟨.ofOrdinal (clockStart + microseconds / 86400000000),
    .ofMicroseconds (microseconds % 86400000000), some 0⟩

end AttributeViews
