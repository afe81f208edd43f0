import AttributeViews.Calendar.Reading
import AttributeViews.Document.Text
import AttributeViews.Value

/-!
# Dates and times in documents

A date, a time of day, or both with a `T` or a space between them; the latter may have an offset
from universal time.  What does not fit any more is left to the reader of the rest.

* `readCalendar` — whichever of them stands at the front of a document.
-/

namespace AttributeViews.Document

/-- An offset, or the letter for universal time itself; nothing is read if neither is there. -/
def readZone : List Char → Option Int × List Char
  | 'Z' :: rest | 'z' :: rest => (some 0, rest)
  | cs =>
      match readOffset? cs with
      | some (offset, rest) => (some offset, rest)
      | none => (none, cs)

/-- Whether a character may stand between a date and a time. -/
def isTimeMark (c : Char) : Bool := c = 'T' || c = 't' || c = ' '

/-- A date, with the time behind it if there is one. -/
def readDated : Reader Value := fun cs => do
  let (date, cs) ← readDate? cs
  match cs with
  | mark :: rest =>
      if isTimeMark mark then
        match readTime? rest with
        | some (time, rest) =>
            let (offset, rest) := readZone rest
            return (.moment ⟨date, time, offset⟩, rest)
        | none => return (.date date, cs)
      else return (.date date, cs)
  | [] => return (.date date, cs)

/-- A date, a time or both. -/
def readCalendar : Reader Value := fun cs =>
  (readDated cs).orElse fun _ => (readTime? cs).map fun (time, rest) => (.time time, rest)

end AttributeViews.Document
