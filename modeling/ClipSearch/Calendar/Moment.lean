import ClipSearch.Calendar.Date
/-!
Moments: a calendar date with a time of day to the nanosecond, without a time zone.

The time of day is the second since midnight and a nanosecond count. A leap second is kept as
second 59 of its minute with a nanosecond count of one billion or more, so it orders after
every other instant of that minute and before the next minute; in text it shows as second 60.

Text forms write the year with at least four digits, and with an explicit sign outside
0 through 9999 (`+262142`, `-0001`).
-/
namespace ClipSearch.Calendar

/-- A date and a time of day: `second` since midnight (below 86400) and `nano` below two
billion, at least one billion only during a leap second. -/
structure Moment where
  date : Date
  second : Nat
  nano : Nat
  deriving DecidableEq, Repr, Inhabited

namespace Moment

def startOfDay (d : Date) : Moment := ⟨d, 0, 0⟩

/-- The last nanosecond of a day before the next day starts. -/
def endOfDay (d : Date) : Moment := ⟨d, 86399, 999999999⟩

/-- Strict order of moments: by date, then second, then nanosecond. -/
def before (a b : Moment) : Bool :=
  a.date.before b.date ||
    (a.date == b.date && (a.second < b.second || (a.second == b.second && a.nano < b.nano)))

def notAfter (a b : Moment) : Bool := !b.before a

/-- The moment `ms` milliseconds after 1970-01-01 00:00:00, if its date is in range. -/
def ofEpochMillis? (ms : Int) : Option Moment :=
  let secs := ms / 1000
  let nano := (ms % 1000).toNat * 1000000
  let days := secs / 86400
  let sod := (secs % 86400).toNat
  let d := Date.ofDays days
  if d.valid then some ⟨d, sod, nano⟩ else none

def hour (m : Moment) : Nat := m.second / 3600

def minute (m : Moment) : Nat := m.second / 60 % 60

/-- The second of the minute as written: 60 during a leap second. -/
def shownSecond (m : Moment) : Nat := m.second % 60 + m.nano / 1000000000

end Moment

/-- Decimal digits of `n`, padded with zeros on the left to at least `width`. -/
def padded (width n : Nat) : String :=
  let s := String.ofList (Nat.toDigits 10 n)
  String.ofList (List.replicate (width - s.length) '0') ++ s

/-- A year with at least four digits; a sign is written outside 0 through 9999. -/
def yearText (y : Int) : String :=
  if 0 ≤ y && y ≤ 9999 then padded 4 y.toNat
  else (if y < 0 then "-" else "+") ++ padded 4 y.natAbs

namespace Date

/-- The date joined by `sep`: year, month and day of two digits. -/
def textWith (sep : String) (d : Date) : String :=
  yearText d.year ++ sep ++ padded 2 d.month ++ sep ++ padded 2 d.day

def slashText (d : Date) : String := d.textWith "/"

def dashText (d : Date) : String := d.textWith "-"

end Date

namespace Moment

/-- `HH:mm:ss`, with second 60 in a leap second. -/
def clockText (m : Moment) : String :=
  padded 2 m.hour ++ ":" ++ padded 2 m.minute ++ ":" ++ padded 2 m.shownSecond

/-- `yyyy/MM/dd HH:mm:ss`: the form written into catalog records. -/
def recordText (m : Moment) : String := m.date.slashText ++ " " ++ m.clockText

/-- `yyyy-MM-dd HH:mm:ss.nnnnnnnnn`: the full form, to the nanosecond. -/
def fullText (m : Moment) : String :=
  m.date.dashText ++ " " ++ m.clockText ++ "." ++ padded 9 (m.nano % 1000000000)

end Moment

end ClipSearch.Calendar
