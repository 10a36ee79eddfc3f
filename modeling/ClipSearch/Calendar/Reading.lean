import ClipSearch.Calendar.Moment
import ClipSearch.Text.Blank
/-!
Reading dates and moments from text.

A layout is a list of pieces. Reading walks the pieces left to right over the text:

* a number piece first skips blank characters, then reads ASCII digits: one or two for month,
  day, hour, minute and second; one to four for an unsigned year, or any number after a sign;
* a blank piece skips any number of blank characters, none included;
* a text piece must match exactly;
* the fraction piece reads nothing unless a `.` follows, and then needs at least one digit; the
  first nine digits are the nanoseconds and further digits are skipped.

Text left over after the last piece makes the reading fail. The fields read must then form a
valid date (and a valid time of day: hour up to 23, minute up to 59, second up to 60, where 60
is a leap second).

`readMoment` tries RFC 3339 first (`2024-05-01T10:00:00+09:00`, keeping the local time as
written), then six layouts with a time, then the date layouts at midnight. `readDate` tries the
date layouts, then takes the date of `readMoment`. Both trim blank characters first.
-/
namespace ClipSearch.Calendar

open ClipSearch.Text

/-- One step of a layout. -/
inductive Piece where
  | year | month | day | hour | minute | second | fraction
  | text (s : String)
  | blank
  deriving Repr, DecidableEq

/-- The fields a reading has found so far. -/
structure Fields where
  year : Option Int := none
  month : Option Nat := none
  day : Option Nat := none
  hour : Option Nat := none
  minute : Option Nat := none
  second : Option Nat := none
  nano : Option Nat := none
  deriving Repr

/-- Reads between `least` and `most` ASCII digits; stops early at a non-digit. Gives the
value, the number of digits read and the rest. -/
def readDigits (least most : Nat) (cs : List Char) : Option (Nat × Nat × List Char) :=
  let ds := (cs.takeWhile Char.isDigit).take most
  if ds.length < least then none
  else some (ds.foldl (fun n c => n * 10 + (c.toNat - '0'.toNat)) 0, ds.length, cs.drop ds.length)

/-- Reads a signed or unsigned year after skipping blanks. -/
def readYear (cs : List Char) : Option (Int × List Char) :=
  match dropBlankFront cs with
  | '-' :: rest => (readDigits 1 rest.length rest).map fun (v, _, r) => (-(v : Int), r)
  | '+' :: rest => (readDigits 1 rest.length rest).map fun (v, _, r) => ((v : Int), r)
  | rest => (readDigits 1 4 rest).map fun (v, _, r) => ((v : Int), r)

/-- Reads a number of one or two digits after skipping blanks, if it is at most `top`. -/
def readSmall (top : Nat) (cs : List Char) : Option (Nat × List Char) :=
  match readDigits 1 2 (dropBlankFront cs) with
  | some (v, _, r) => if v ≤ top then some (v, r) else none
  | none => none

/-- Reads the digits after a decimal point as nanoseconds: the first nine digits count,
scaled to nine places, and further digits are skipped. -/
def readNanos (cs : List Char) : Option (Nat × List Char) :=
  match readDigits 1 9 cs with
  | some (v, n, r) => some (v * Nat.pow 10 (9 - n), r.dropWhile Char.isDigit)
  | none => none

/-- Reads one piece, adding what it finds to the fields. -/
def Piece.read (f : Fields) (cs : List Char) : Piece → Option (Fields × List Char)
  | .year => (readYear cs).map fun (v, r) => ({ f with year := some v }, r)
  | .month => (readSmall 12 cs).bind fun (v, r) =>
      if v = 0 then none else some ({ f with month := some v }, r)
  | .day => (readSmall 31 cs).bind fun (v, r) =>
      if v = 0 then none else some ({ f with day := some v }, r)
  | .hour => (readSmall 23 cs).map fun (v, r) => ({ f with hour := some v }, r)
  | .minute => (readSmall 59 cs).map fun (v, r) => ({ f with minute := some v }, r)
  | .second => (readSmall 60 cs).map fun (v, r) => ({ f with second := some v }, r)
  | .fraction =>
      match cs with
      | '.' :: rest => (readNanos rest).map fun (v, r) => ({ f with nano := some v }, r)
      | _ => some (f, cs)
  | .text s => if s.toList.isPrefixOf cs then some (f, cs.drop s.length) else none
  | .blank => some (f, dropBlankFront cs)

/-- Reads a whole text by a layout; nothing may be left over. -/
def readLayout (pieces : List Piece) (cs : List Char) : Option Fields :=
  let step (acc : Option (Fields × List Char)) (p : Piece) :=
    acc.bind fun (f, r) => p.read f r
  match pieces.foldl step (some ({}, cs)) with
  | some (f, []) => some f
  | _ => none

def Fields.date? (f : Fields) : Option Date :=
  match f.year, f.month, f.day with
  | some y, some m, some d => Date.ofYmd? y m d
  | _, _, _ => none

/-- The moment the fields name: hour and minute are needed, second and nanoseconds default to
zero, and second 60 is a leap second. -/
def Fields.moment? (f : Fields) : Option Moment :=
  match f.date?, f.hour, f.minute with
  | some d, some h, some mi =>
    let s := f.second.getD 0
    let n := f.nano.getD 0
    if s = 60 then some ⟨d, h * 3600 + mi * 60 + 59, n + 1000000000⟩
    else some ⟨d, h * 3600 + mi * 60 + s, n⟩
  | _, _, _ => none

/-- Layouts of a bare date: `/`, `-`, `.` and the 年月日 form. -/
def dateLayouts : List (List Piece) :=
  [[.year, .text "/", .month, .text "/", .day],
   [.year, .text "-", .month, .text "-", .day],
   [.year, .text ".", .month, .text ".", .day],
   [.year, .text "年", .month, .text "月", .day, .text "日"]]

/-- Layouts of a date with a time of day, with or without seconds. -/
def momentLayouts : List (List Piece) :=
  let withSeconds (d : List Piece) (sep : Piece) : List Piece :=
    d ++ [sep, .hour, .text ":", .minute, .text ":", .second, .fraction]
  let withMinutes (d : List Piece) (sep : Piece) : List Piece :=
    d ++ [sep, .hour, .text ":", .minute]
  let slash : List Piece := [.year, .text "/", .month, .text "/", .day]
  let dash : List Piece := [.year, .text "-", .month, .text "-", .day]
  [withSeconds slash .blank, withMinutes slash .blank,
   withSeconds dash .blank, withMinutes dash .blank,
   withSeconds dash (.text "T"), withMinutes dash (.text "T")]

/-- The full-text form of a moment: `yyyy-MM-dd HH:mm:ss` with an optional fraction. -/
def fullLayout : List Piece :=
  [.year, .text "-", .month, .text "-", .day, .blank, .hour, .text ":", .minute, .text ":",
   .second, .fraction]

def readExact (n : Nat) (cs : List Char) : Option (Nat × List Char) :=
  match readDigits n n cs with
  | some (v, _, r) => some (v, r)
  | none => none

def readChar (c : Char) : List Char → Option (List Char)
  | d :: r => if d = c then some r else none
  | [] => none

/-- Reads an RFC 3339 offset: `Z`, `z`, or a sign (`+`, `-` or U+2212), two digits of hours,
a colon and two digits of minutes below 60; the offset must stay under 24 hours. -/
def readOffset : List Char → Option (List Char)
  | 'Z' :: r => some r
  | 'z' :: r => some r
  | c :: r =>
    if c = '+' || c = '-' || c = '−' then
      match r with
      | h1 :: h2 :: r2 =>
        if h1.isDigit && h2.isDigit && (h1.toNat - 48) * 10 + (h2.toNat - 48) ≤ 23 then
          match r2 with
          | ':' :: m1 :: m2 :: r3 =>
            if m1.isDigit && m2.isDigit && m1.toNat ≤ '5'.toNat then some r3 else none
          | _ => none
        else none
      | _ => none
    else none
  | [] => none

/-- Reads an RFC 3339 date-time (`YYYY-MM-DD`, `T`, `t` or a space, `HH:MM:SS`, an optional
fraction and an offset) and keeps the local time as written. -/
def readRfc3339 (cs : List Char) : Option Moment := do
  let (y, r) ← readExact 4 cs
  let r ← readChar '-' r
  let (mo, r) ← readExact 2 r
  let r ← readChar '-' r
  let (d, r) ← readExact 2 r
  let r ← match r with
    | c :: r => if c = 'T' || c = 't' || c = ' ' then some r else none
    | [] => none
  let (h, r) ← readExact 2 r
  let r ← readChar ':' r
  let (mi, r) ← readExact 2 r
  let r ← readChar ':' r
  let (s, r) ← readExact 2 r
  let (nano, r) ← match r with
    | '.' :: rest => readNanos rest
    | _ => some (0, r)
  let r ← readOffset r
  if r.isEmpty && 1 ≤ mo && mo ≤ 12 && 1 ≤ d && d ≤ 31 && h ≤ 23 && mi ≤ 59 && s ≤ 60 then
    let f : Fields := ⟨some y, some mo, some d, some h, some mi, some s, some nano⟩
    f.moment?
  else none

def firstSome {α β : Type} (f : α → Option β) : List α → Option β
  | [] => none
  | a :: as => match f a with
    | some b => some b
    | none => firstSome f as

/-- A moment from text, blank characters trimmed: RFC 3339, then a date with a time, then a
bare date at midnight. -/
def readMoment (s : String) : Option Moment :=
  let cs := (trim s).toList
  match readRfc3339 cs with
  | some m => some m
  | none =>
    match firstSome (fun l => (readLayout l cs).bind Fields.moment?) momentLayouts with
    | some m => some m
    | none => (firstSome (fun l => (readLayout l cs).bind Fields.date?) dateLayouts).map
        Moment.startOfDay

/-- A calendar date from text, blank characters trimmed: a bare date, or the date of a moment. -/
def readDate (s : String) : Option Date :=
  let cs := (trim s).toList
  match firstSome (fun l => (readLayout l cs).bind Fields.date?) dateLayouts with
  | some d => some d
  | none => (readMoment s).map Moment.date

/-- A moment in the full-text form `yyyy-MM-dd HH:mm:ss[.f]`, read strictly. -/
def readFullMoment (s : String) : Option Moment :=
  (readLayout fullLayout s.toList).bind Fields.moment?

def readDashDate (s : String) : Option Date :=
  (readLayout [.year, .text "-", .month, .text "-", .day] s.toList).bind Fields.date?

end ClipSearch.Calendar
