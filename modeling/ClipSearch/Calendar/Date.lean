/-!
Calendar dates in the proleptic Gregorian calendar, for years -262143 through 262142.

A date counts days from 1970-01-01 (`Date.toDays`, `Date.ofDays`) by the usual era arithmetic:
400 Gregorian years are exactly 146097 days, and a year is counted from March so that the leap
day comes last. Dates are ordered by year, then month, then day.
-/
namespace ClipSearch.Calendar

/-- A day of the calendar: year, month 1 to 12, day of the month from 1. -/
structure Date where
  year : Int
  month : Nat
  day : Nat
  deriving DecidableEq, Repr, Inhabited

namespace Date

def minYear : Int := -262143

def maxYear : Int := 262142

/-- Gregorian leap years: divisible by 4, except centuries not divisible by 400. -/
def isLeapYear (y : Int) : Bool := (y % 4 == 0 && y % 100 != 0) || y % 400 == 0

def daysInMonth (y : Int) (m : Nat) : Nat :=
  match m with
  | 2 => if isLeapYear y then 29 else 28
  | 4 | 6 | 9 | 11 => 30
  | _ => 31

/-- A date is valid when its year is in range and its month and day exist. -/
def valid (d : Date) : Bool :=
  minYear ≤ d.year && d.year ≤ maxYear && 1 ≤ d.month && d.month ≤ 12 && 1 ≤ d.day &&
    d.day ≤ daysInMonth d.year d.month

def ofYmd? (y : Int) (m d : Nat) : Option Date :=
  let x : Date := ⟨y, m, d⟩
  if x.valid then some x else none

/-- Days from 1970-01-01 to the date (negative before it). -/
def toDays (d : Date) : Int :=
  let y : Int := if d.month ≤ 2 then d.year - 1 else d.year
  let era := y / 400
  let yoe := y - era * 400
  let mp : Int := if d.month > 2 then (d.month : Int) - 3 else (d.month : Int) + 9
  let doy := (153 * mp + 2) / 5 + (d.day : Int) - 1
  let doe := yoe * 365 + yoe / 4 - yoe / 100 + doy
  era * 146097 + doe - 719468

/-- The date that lies `z` days after 1970-01-01. -/
def ofDays (z : Int) : Date :=
  let z := z + 719468
  let era := z / 146097
  let doe := z - era * 146097
  let yoe := (doe - doe / 1460 + doe / 36524 - doe / 146096) / 365
  let y := yoe + era * 400
  let doy := doe - (365 * yoe + yoe / 4 - yoe / 100)
  let mp := (5 * doy + 2) / 153
  let day := doy - (153 * mp + 2) / 5 + 1
  let month := if mp < 10 then mp + 3 else mp - 9
  ⟨if month ≤ 2 then y + 1 else y, month.toNat, day.toNat⟩

def key (d : Date) : Int × Nat × Nat := (d.year, d.month, d.day)

/-- Strict order of dates: earlier year, then earlier month, then earlier day. -/
def before (a b : Date) : Bool :=
  a.year < b.year || (a.year == b.year && (a.month < b.month || (a.month == b.month && a.day < b.day)))

instance : LT Date := ⟨fun a b => a.before b = true⟩

instance (a b : Date) : Decidable (a < b) := inferInstanceAs (Decidable (a.before b = true))

def earlier (a b : Date) : Date := if b.before a then b else a

def later (a b : Date) : Date := if a.before b then b else a

/-- Four hundred years on, the same day of the year lies 146097 days later. -/
theorem toDays_add_era (d : Date) :
    toDays ⟨d.year + 400, d.month, d.day⟩ = toDays d + 146097 := by
  simp only [toDays]
  split <;> omega

/-- Counting 146097 days on lands on the same day of the year, four hundred years later. -/
theorem ofDays_add_era (z : Int) :
    ofDays (z + 146097) = ⟨(ofDays z).year + 400, (ofDays z).month, (ofDays z).day⟩ := by
  have hera : (z + 146097 + 719468) / 146097 = (z + 719468) / 146097 + 1 := by omega
  have hdoe : z + 146097 + 719468 - ((z + 719468) / 146097 + 1) * 146097 =
      z + 719468 - (z + 719468) / 146097 * 146097 := by omega
  simp only [ofDays, hera, hdoe]
  split <;> split <;> simp <;> omega

example : toDays ⟨1970, 1, 1⟩ = 0 := by decide
example : ofDays 0 = ⟨1970, 1, 1⟩ := by decide
example : ofDays (toDays ⟨2000, 2, 29⟩ + 146097) = ⟨2400, 2, 29⟩ := by decide

end Date

end ClipSearch.Calendar
