import AttributeViews.Calendar

/-!
# Reading dates and times

Each reader takes its form off the front of the characters and answers the value and what is left.
The forms are the written ones, with a fraction of any length of which six digits count.

* `readDate?`, `readTime?`, `readOffset?` — the parts.
* `Date.ofIso?`, `TimeOfDay.ofIso?`, `Moment.ofIso?` — whole texts.
-/

namespace AttributeViews

/-- A decimal digit's value. -/
def digitValue? (c : Char) : Option Nat :=
  if '0' ≤ c ∧ c ≤ '9' then some (c.toNat - '0'.toNat) else none

/-- Exactly `width` decimal digits. -/
def readNumber? (width : Nat) (cs : List Char) : Option (Nat × List Char) :=
  let front := cs.take width
  if front.length = width then
    (front.foldlM (fun n c => (digitValue? c).map (10 * n + ·)) 0).map (·, cs.drop width)
  else none

/-- One given character. -/
def readMark? (mark : Char) : List Char → Option (List Char)
  | [] => none
  | c :: rest => if c = mark then some rest else none

/-- Year, month and day. -/
def readDate? (cs : List Char) : Option (Date × List Char) := do
  let (year, cs) ← readNumber? 4 cs
  let cs ← readMark? '-' cs
  let (month, cs) ← readNumber? 2 cs
  let cs ← readMark? '-' cs
  let (day, cs) ← readNumber? 2 cs
  let date ← Date.ofNumbers? year month day
  return (date, cs)

/-- A point and at least one digit: the microseconds of the first six digits.  Without them nothing
is taken and the fraction is zero. -/
def readFraction (cs : List Char) : Nat × List Char :=
  match cs with
  | '.' :: rest =>
      let digits := rest.takeWhile fun c => (digitValue? c).isSome
      if digits.isEmpty then (0, cs)
      else
        let six := digits.take 6 ++ List.replicate (6 - digits.length) '0'
        (six.foldl (fun n c => 10 * n + (digitValue? c).getD 0) 0, rest.drop digits.length)
  | _ => (0, cs)

/-- Hour, minute, second and fraction. -/
def readTime? (cs : List Char) : Option (TimeOfDay × List Char) := do
  let (hour, cs) ← readNumber? 2 cs
  let cs ← readMark? ':' cs
  let (minute, cs) ← readNumber? 2 cs
  let cs ← readMark? ':' cs
  let (second, cs) ← readNumber? 2 cs
  let (microsecond, cs) := readFraction cs
  let time ← TimeOfDay.ofNumbers? hour minute second microsecond
  return (time, cs)

/-- The sign in front of an offset. -/
def readSign? : List Char → Option (Int × List Char)
  | '+' :: rest => some (1, rest)
  | '-' :: rest => some (-1, rest)
  | _ => none

/-- Sign, hours and minutes of an offset, in microseconds. -/
def readOffset? (cs : List Char) : Option (Int × List Char) := do
  let (sign, cs) ← readSign? cs
  let (hour, cs) ← readNumber? 2 cs
  let cs ← readMark? ':' cs
  let (minute, cs) ← readNumber? 2 cs
  let time ← TimeOfDay.ofNumbers? hour minute 0 0
  return (sign * time.sinceMidnight, cs)

/-- An offset to the end of the text, which may go down to microseconds.  One of less than a second
is taken for universal time itself. -/
def readFineOffset? (cs : List Char) : Option Int :=
  match readOffset? cs with
  | some (offset, []) => some offset
  | _ => do
      let (sign, cs) ← readSign? cs
      let (time, []) ← readTime? cs | none
      return if time.sinceMidnight < 1000000 then 0 else sign * time.sinceMidnight

/-- The day that a text writes. -/
def Date.ofIso? (s : String) : Option Date :=
  match readDate? s.toList with
  | some (date, []) => some date
  | _ => none

/-- The time of day that a text writes. -/
def TimeOfDay.ofIso? (s : String) : Option TimeOfDay :=
  match readTime? s.toList with
  | some (time, []) => some time
  | _ => none

/-- The moment that a text writes, aware if an offset follows the time. -/
def Moment.ofIso? (s : String) : Option Moment := do
  let (date, cs) ← readDate? s.toList
  let cs ← readMark? 'T' cs
  let (time, cs) ← readTime? cs
  if cs.isEmpty then return ⟨date, time, none⟩
  else return ⟨date, time, some (← readFineOffset? cs)⟩

end AttributeViews
