import ClipSearch.Decimal.Read
import ClipSearch.Decimal.Text
import ClipSearch.Text.Blank
/-!
Durations in milliseconds: reading them as people type them, and writing them.

Reading trims blank characters; blank text is zero. Text with one `:` is first read as
`minutes:seconds`, each side a decimal number (blanks around it allowed, fractions and signs
too); the total must be finite and not negative, and is rounded to the nearest millisecond,
halves away from zero, saturating at the largest 64-bit count. Otherwise, or if that fails, the
text is a time span: a bare count of days, or `[days.]hours:minutes:seconds[.fraction]` with
hours below 24, minutes and seconds below 60, plain ASCII digits, and a fraction of at most
seven digits of which the first three count. Spans that overflow 64 bits are refused.

Writing gives `hh:mm:ss` with as many hour digits as needed, or the seconds as a plain decimal.
-/
namespace ClipSearch.Duration

open ClipSearch.Decimal ClipSearch.Text

/-- Milliseconds in a second, a minute, an hour and a day. -/
def msSecond : Nat := 1000
def msMinute : Nat := 60 * msSecond
def msHour : Nat := 60 * msMinute
def msDay : Nat := 24 * msHour

def countLimit : Nat := Nat.pow 2 64 - 1

/-- A count of ASCII digits only, at least one, fitting 64 bits. -/
def readDigitsOnly (s : String) : Option Nat :=
  let cs := s.toList
  if cs.isEmpty || !cs.all Char.isDigit then none
  else
    let v := digitsValue cs
    if v ≤ countLimit then some v else none

/-- The first three digits of a fraction as milliseconds; at most seven digits allowed. -/
def fractionMillis (s : String) : Option Nat :=
  let cs := s.toList
  if cs.isEmpty then some 0
  else if cs.length > 7 || !cs.all Char.isDigit then none
  else some (digitsValue ((cs.take 3) ++ List.replicate (3 - min 3 cs.length) '0'))

/-- A finite double without sign rounded to the nearest whole number, halves up, and held at
the largest 64-bit count: what rounding a double and converting it to a 64-bit count give. -/
def roundToCount (x : Float) : Nat :=
  let b := Binary.split x
  -- the value is `b.significand * 2^b.exponent`; below one, add a half and cut
  let whole := if b.exponent ≥ 0 then b.significand * Nat.pow 2 b.exponent.toNat
    else (2 * b.significand + Nat.pow 2 (-b.exponent).toNat) / Nat.pow 2 ((-b.exponent).toNat + 1)
  min whole countLimit

/-- `minutes:seconds` with decimal sides, rounded to milliseconds. -/
def readMinutesSeconds (minutes seconds : String) : Option Nat := do
  let m ← readFloat (trim minutes)
  let s ← readFloat (trim seconds)
  let ms := m * 60000.0 + s * 1000.0
  if Binary.isSpecial ms || ms < 0.0 then none else some (roundToCount ms)

/-- A bare count of days, or `[days.]hours:minutes:seconds[.fraction]`. -/
def readSpan (s : String) : Option Nat :=
  match readCount s with
  | some days => if days * msDay ≤ countLimit then some (days * msDay) else none
  | none =>
    match s.splitOn ":" with
    | [hs, ms, ss] => do
      let (days, hs) ← match splitFirstDot hs with
        | some (d, h) => (readDigitsOnly d).map fun d => (d, h)
        | none => some (0, hs)
      let h ← readDigitsOnly hs
      let m ← readDigitsOnly ms
      let (sec, frac) := (splitFirstDot ss).getD (ss, "")
      let sec ← readDigitsOnly sec
      let milli ← fractionMillis frac
      if h < 24 && m < 60 && sec < 60 then
        let total := days * msDay + (h * msHour + m * msMinute + sec * msSecond + milli)
        if days * msDay ≤ countLimit && total ≤ countLimit then some total else none
      else none
    | _ => none
where
  /-- Splits at the first `.`. -/
  splitFirstDot (s : String) : Option (String × String) :=
    let cs := s.toList
    if cs.contains '.' then
      some (String.ofList (cs.takeWhile (· != '.')), String.ofList ((cs.dropWhile (· != '.')).drop 1))
    else none

/-- Reads a duration as typed into a form, in milliseconds. -/
def read (input : String) : Option Nat :=
  let t := trim input
  if t.isEmpty then some 0
  else
    let cs := t.toList
    if cs.contains ':' then
      let minutes := String.ofList (cs.takeWhile (· != ':'))
      let seconds := String.ofList ((cs.dropWhile (· != ':')).drop 1)
      if seconds.toList.contains ':' then readSpan t
      else (readMinutesSeconds minutes seconds).orElse fun _ => readSpan t
    else readSpan t

/-- `hh:mm:ss` of whole seconds; hours take as many digits as needed. -/
def clockText (ms : Nat) : String :=
  let secs := ms / 1000
  let two (n : Nat) : String :=
    let s := String.ofList (Nat.toDigits 10 n)
    if s.length < 2 then "0" ++ s else s
  two (secs / 3600) ++ ":" ++ two (secs / 60 % 60) ++ ":" ++ two (secs % 60)

/-- The seconds of a count of milliseconds, as a plain decimal of the nearest double. -/
def secondsText (ms : Nat) : String :=
  render Style.plain (Binary.ofDecimal false ms 0 / 1000.0)

end ClipSearch.Duration
