import ClipSearch.Decimal.Binary
/-!
Reading numbers from text.

`readFloat` accepts an optional sign, then `inf`, `infinity` or `nan` in any case, or a decimal
number: digits with an optional point and fraction (at least one digit on either side of the
point), then an optional exponent `e`/`E` with an optional sign and at least one digit. Nothing
else may surround it. The value is the double nearest to the decimal, ties to even.

`readCount` reads an unsigned 64-bit integer: an optional `+`, then ASCII digits only, and the
value must fit in 64 bits.
-/
namespace ClipSearch.Decimal

/-- The value of a string of ASCII digits. -/
def digitsValue (ds : List Char) : Nat := ds.foldl (fun n c => n * 10 + (c.toNat - 48)) 0

def spanDigits (cs : List Char) : List Char × List Char :=
  (cs.takeWhile Char.isDigit, cs.dropWhile Char.isDigit)

/-- An exponent: optional sign, then one or more digits, then nothing. -/
def readExponent (cs : List Char) : Option Int :=
  let (neg, body) := match cs with
    | '+' :: r => (false, r)
    | '-' :: r => (true, r)
    | r => (false, r)
  let (ds, rest) := spanDigits body
  if ds.isEmpty || !rest.isEmpty then none
  else some (if neg then -(digitsValue ds : Int) else digitsValue ds)

/-- Reads a decimal number with an optional sign, or an infinity or NaN, as a double. -/
def readFloat (s : String) : Option Float :=
  let cs := s.toList
  let (neg, body) := match cs with
    | '+' :: r => (false, r)
    | '-' :: r => (true, r)
    | r => (false, r)
  let word := String.ofList (body.map Char.toLower)
  if word == "inf" || word == "infinity" then
    some (if neg then -(1.0 / 0.0) else 1.0 / 0.0)
  else if word == "nan" then some (0.0 / 0.0)
  else
    let (whole, rest) := spanDigits body
    let (frac, rest) := match rest with
      | '.' :: r => spanDigits r
      | r => ([], r)
    if whole.isEmpty && frac.isEmpty then none
    else
      let exp := match rest with
        | [] => some 0
        | c :: r => if c == 'e' || c == 'E' then readExponent r else none
      exp.map fun e =>
        Binary.ofDecimal neg (digitsValue (whole ++ frac)) (e - (frac.length : Int))

/-- Reads an unsigned 64-bit integer: optional `+`, then ASCII digits. -/
def readCount (s : String) : Option Nat :=
  let body := match s.toList with
    | '+' :: r => r
    | r => r
  if body.isEmpty || !body.all Char.isDigit then none
  else
    let v := digitsValue body
    if v < Nat.pow 2 64 then some v else none

end ClipSearch.Decimal
