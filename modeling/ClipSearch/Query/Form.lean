import ClipSearch.Query.Predicate
import ClipSearch.Duration
/-!
The search form: fields a person fills in, written out as query text.

Text fields become `?key:value`, quoted when the value holds a space or starts with `(`, and
are left out when blank. The duration bounds are read as durations and written as seconds;
date bounds are written as `yyyy/MM/dd`; a range with either side set becomes `?key:min-max`.
A range whose bounds cannot be read, or run backwards, is left out and reported instead, in
the order duration, date, created, updated. Brands (in bit order), live types (in declaration
order, those chosen) and performers (as given) become `?key:("a" OR "b")`. Tokens are joined by
single spaces.
-/
namespace ClipSearch.Query

open ClipSearch.Catalog ClipSearch.Calendar

/-- The fields of the search form. -/
structure Form where
  path : String := ""
  clipName : String := ""
  songTitle : String := ""
  concertName : String := ""
  lyrics : String := ""
  remarks : String := ""
  minDuration : String := ""
  maxDuration : String := ""
  concertDateFrom : Option Date := none
  concertDateTo : Option Date := none
  createdFrom : Option Date := none
  createdTo : Option Date := none
  updatedFrom : Option Date := none
  updatedTo : Option Date := none
  brands : BrandSet := .empty
  liveTypes : List LiveType := []
  performers : List String := []
  deriving Repr

/-- Why a range of the form was left out. -/
inductive RangeError where
  | invalidLowerBound | invalidUpperBound | lowerExceedsUpper | startAfterEnd
  deriving DecidableEq, Repr

def RangeError.message : RangeError → String
  | .invalidLowerBound => "invalid lower bound"
  | .invalidUpperBound => "invalid upper bound"
  | .lowerExceedsUpper => "lower bound exceeds upper bound"
  | .startAfterEnd => "start date is after end date"

/-- Query text written from a form, with the ranges that were left out. -/
structure Built where
  query : String
  errors : List (FieldKey × RangeError)
  deriving Repr

/-- `?key:value`, quoted when needed; none for a blank value. -/
def textToken (key : FieldKey) (value : String) : Option String :=
  if (ClipSearch.Text.trim value).isEmpty then none
  else if value.toList.contains ' ' || value.toList.head? == some '(' then
    some ("?" ++ key.keyword ++ ":\"" ++ value ++ "\"")
  else some ("?" ++ key.keyword ++ ":" ++ value)

/-- `?key:min-max` when either side is set. -/
def rangeToken (key : FieldKey) (lo hi : String) : Option String :=
  if lo.isEmpty && hi.isEmpty then none else some ("?" ++ key.keyword ++ ":" ++ lo ++ "-" ++ hi)

/-- `?key:("a" OR "b")` when any value is chosen. -/
def selectionToken (key : FieldKey) (values : List String) : Option String :=
  if values.isEmpty then none
  else some ("?" ++ key.keyword ++ ":(" ++ " OR ".intercalate (values.map fun v => "\"" ++ v ++ "\"") ++ ")")

/-- A duration bound: blank is open, otherwise it must read as a duration. -/
def durationBound (s : String) : Option (Option Nat) :=
  if (ClipSearch.Text.trim s).isEmpty then some none else (Duration.read s).map some

/-- The duration bounds as seconds text, or why they were refused. -/
def durationBounds (lo hi : String) : Except RangeError (String × String) := do
  let some lo := durationBound lo | throw .invalidLowerBound
  let some hi := durationBound hi | throw .invalidUpperBound
  if let (some a, some b) := (lo, hi) then
    if a > b then throw .lowerExceedsUpper
  let text (o : Option Nat) := (o.map Duration.secondsText).getD ""
  return (text lo, text hi)

/-- The date bounds as `yyyy/MM/dd` text, or why they were refused. -/
def dateBounds (lo hi : Option Date) : Except RangeError (String × String) := do
  if let (some a, some b) := (lo, hi) then
    if b.before a then throw .startAfterEnd
  let text (o : Option Date) := (o.map Date.slashText).getD ""
  return (text lo, text hi)

namespace Form

/-- Writes the form as query text, leaving out and reporting refused ranges. -/
def build (f : Form) : Built :=
  let texts := [textToken .path f.path, textToken .clip f.clipName, textToken .song f.songTitle,
    textToken .concert f.concertName, textToken .lyrics f.lyrics, textToken .remarks f.remarks]
  let ranged (key : FieldKey) (r : Except RangeError (String × String)) :
      Option String × List (FieldKey × RangeError) :=
    match r with
    | .ok (lo, hi) => (rangeToken key lo hi, [])
    | .error e => (none, [(key, e)])
  let ranges := [ranged .duration (durationBounds f.minDuration f.maxDuration),
    ranged .date (dateBounds f.concertDateFrom f.concertDateTo),
    ranged .created (dateBounds f.createdFrom f.createdTo),
    ranged .updated (dateBounds f.updatedFrom f.updatedTo)]
  let selections := [selectionToken .brands f.brands.labels,
    selectionToken .type ((LiveType.all.filter fun t => f.liveTypes.contains t).map LiveType.label),
    selectionToken .performers f.performers]
  let tokens := (texts ++ ranges.map Prod.fst ++ selections).filterMap id
  ⟨" ".intercalate tokens, (ranges.map Prod.snd).flatten⟩

def cleared : Form := {}

end Form

end ClipSearch.Query
