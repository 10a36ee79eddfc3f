import ClipSearch.Decimal.Read
import ClipSearch.Calendar.Reading
import ClipSearch.Text.Blank
import ClipSearch.Text.Split
/-!
Ranges in queries.

A numeric range is read from the text around its first `-`: without one, the whole text is an
exact value (or the range is invalid); with one, each side is a bound, and a side that is blank
or not a finite number is open. An exact value holds every value less than half away from it.
A range open on both sides holds everything, a missing value included; otherwise a value must
be present and within the bounds.

A date range is read the same way from calendar dates: a single date covers its whole day;
the start of a range is the start of its day and the end the last nanosecond of its day. A
missing value is never in a date range.
-/
namespace ClipSearch.Query

open ClipSearch.Calendar ClipSearch.Text ClipSearch.Decimal

inductive NumericRange where
  | exact (value : Float)
  | bounded (min max : Option Float)
  | invalid
  deriving Repr

/-- A finite number from text with blanks trimmed; blank or unreadable text gives none. -/
def readBound (s : String) : Option Float :=
  let t := trim s
  if t.isEmpty then none
  else match readFloat t with
    | some x => if Binary.isSpecial x then none else some x
    | none => none

namespace NumericRange

def ofText (s : String) : NumericRange :=
  match splitFirst '-' s with
  | none => match readBound s with
    | some x => .exact x
    | none => .invalid
  | some (lo, hi) => .bounded (readBound lo) (readBound hi)

/-- Whether the range holds a value (none stands for a missing value). -/
def holds (r : NumericRange) (v : Option Float) : Bool :=
  match r, v with
  | .invalid, _ => false
  | .exact e, some x => (x - e).abs < 0.5
  | .exact _, none => false
  | .bounded none none, _ => true
  | .bounded lo hi, some x =>
    (match lo with | some l => x >= l | none => true) &&
      (match hi with | some h => x <= h | none => true)
  | .bounded _ _, none => false

end NumericRange

inductive DateRange where
  | bounded (start stop : Option Moment)
  | invalid
  deriving Repr

namespace DateRange

def ofText (s : String) : DateRange :=
  match splitFirst '-' s with
  | none => match readDate s with
    | some d => .bounded (some (Moment.startOfDay d)) (some (Moment.endOfDay d))
    | none => .invalid
  | some (lo, hi) => .bounded ((readDate lo).map Moment.startOfDay) ((readDate hi).map Moment.endOfDay)

/-- Whether the range holds a moment; a missing moment is never held. -/
def holds (r : DateRange) (v : Option Moment) : Bool :=
  match r, v with
  | .invalid, _ => false
  | .bounded _ _, none => false
  | .bounded lo hi, some m =>
    (match lo with | some l => l.notAfter m | none => true) &&
      (match hi with | some h => m.notAfter h | none => true)

end DateRange

end ClipSearch.Query
