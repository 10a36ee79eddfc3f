import ClipSearch.Decimal.Shortest
/-!
Writing doubles as text.

`Style` holds the decisions of a number format: where positional notation gives way to an
exponent, and what is appended to a whole number. Two styles are used:

* `Style.plain`: always positional, a whole number without a fraction (`150`, `0.001`,
  `18446744073709550`);
* `Style.data`: the data-interchange form, positional while the decimal point falls after at
  most sixteen digits and before at most five leading zeros, else with a signed exponent
  (`1e+300`, `1.5e-7`); a whole number keeps `.0`.

`fixed` writes a double with a fixed number of decimal places, rounding its exact binary value
to the nearest such decimal, a tie going to the even last digit.
-/
namespace ClipSearch.Decimal

/-- The decisions of a number format. -/
structure Style where
  /-- Exponent form is used when the count of digits before the point is outside
  `(low, high]`; `none` writes every value positionally. -/
  window : Option (Int × Int)
  /-- Appended to a value written without fraction digits. -/
  wholeSuffix : String

/-- Always positional; whole numbers have no fraction. -/
def Style.plain : Style := ⟨none, ""⟩

/-- Positional for points after -5 up to 16 digits, else with an exponent; whole numbers end
in `.0`. -/
def Style.data : Style := ⟨some (-5, 16), ".0"⟩

def digitText (n : Nat) : String := String.ofList (Nat.toDigits 10 n)

def zeros (n : Nat) : String := String.ofList (List.replicate n '0')

/-- Writes a magnitude `d` in a style. -/
def Digits.render (st : Style) (d : Digits) : String :=
  let ds := digitText d.digits
  let n : Int := ds.length
  let point := n + d.exponent
  let positional :=
    if d.exponent ≥ 0 then ds ++ zeros d.exponent.toNat ++ st.wholeSuffix
    else if point > 0 then
      String.ofList (ds.toList.take point.toNat) ++ "." ++ String.ofList (ds.toList.drop point.toNat)
    else "0." ++ zeros (-point).toNat ++ ds
  match st.window with
  | none => positional
  | some (low, high) =>
    if low < point && point ≤ high then positional
    else
      let mark := "e" ++ (if point - 1 < 0 then "-" else "+") ++ digitText (point - 1).natAbs
      if ds.length == 1 then ds ++ mark
      else String.ofList (ds.toList.take 1) ++ "." ++ String.ofList (ds.toList.drop 1) ++ mark

/-- Writes a finite double in a style, with `-` before a negative value (and negative zero). -/
def render (st : Style) (x : Float) : String :=
  let b := Binary.split x
  (if b.negative then "-" else "") ++ (shortest x).render st

/-- Writes a finite double with `places` decimals, rounding the exact value half to even. -/
def fixed (places : Nat) (x : Float) : String :=
  let b := Binary.split x
  let scaled :=
    if b.exponent ≥ 0 then b.significand * Nat.pow 2 b.exponent.toNat * Nat.pow 10 places
    else Binary.roundHalfEven (b.significand * Nat.pow 10 places) (Nat.pow 2 (-b.exponent).toNat)
  let ds := digitText scaled
  let ds := if ds.length ≤ places then zeros (places + 1 - ds.length) ++ ds else ds
  let whole := String.ofList (ds.toList.take (ds.length - places))
  let frac := String.ofList (ds.toList.drop (ds.length - places))
  (if b.negative then "-" else "") ++ whole ++ (if places = 0 then "" else "." ++ frac)

end ClipSearch.Decimal
