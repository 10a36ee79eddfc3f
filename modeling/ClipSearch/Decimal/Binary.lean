/-!
Binary64 numbers seen exactly.

`Binary.split` takes a finite double apart into its sign, an integer significand `m` and a
power of two `q`, with value `m * 2^q`. `Binary.nearest` goes the other way: it rounds an exact
non-negative rational `num / den` to the nearest double, a tie going to the even significand,
and gives infinity past the largest finite double. Both work on the bit pattern, so nothing
depends on how a platform rounds.
-/
namespace ClipSearch.Decimal

/-- A double taken apart: sign, significand and binary exponent, value `±m * 2^q`. -/
structure Binary where
  negative : Bool
  significand : Nat
  exponent : Int
  deriving Repr, DecidableEq

namespace Binary

/-- The bit pattern's exponent field is all ones: an infinity or a NaN. -/
def isSpecial (x : Float) : Bool := (x.toBits >>> 52) &&& 0x7FF == 0x7FF

def split (x : Float) : Binary :=
  let bits := x.toBits
  let neg := bits >>> 63 == 1
  let field := ((bits >>> 52) &&& 0x7FF).toNat
  let frac := (bits &&& 0xFFFFFFFFFFFFF).toNat
  if field == 0 then ⟨neg, frac, -1074⟩
  else ⟨neg, frac + Nat.pow 2 52, (field : Int) - 1075⟩

/-- Whether the significand sits at the bottom of its binade, so that the gap to the next
double below is half the gap above. -/
def lowerGapHalved (b : Binary) : Bool := b.significand == Nat.pow 2 52 && b.exponent > -1074

/-- Divides and rounds to the nearest integer, a tie going to the even one. -/
def roundHalfEven (num den : Nat) : Nat :=
  let q := num / den
  let r := num % den
  if 2 * r > den || (2 * r == den && q % 2 == 1) then q + 1 else q

/-- The largest `b` with `2^b ≤ num / den`, for positive `num` and `den`. -/
def floorLog2 (num den : Nat) : Int :=
  let guess : Int := (num.log2 : Int) - (den.log2 : Int)
  -- the guess is off by at most one
  let scaledNum (e : Int) : Nat := num * Nat.pow 2 (-e).toNat
  let scaledDen (e : Int) : Nat := den * Nat.pow 2 e.toNat
  if scaledDen guess ≤ scaledNum guess then guess else guess - 1

def pack (neg : Bool) (field frac : Nat) : Float :=
  Float.ofBits (((if neg then 1 else 0 : UInt64) <<< 63) ||| ((field.toUInt64) <<< 52) |||
    frac.toUInt64)

/-- The double nearest to `num / den` (ties to even), with the sign `neg`; infinity when the
value rounds past the largest finite double. `den` must be positive. -/
def nearest (neg : Bool) (num den : Nat) : Float :=
  if num = 0 then pack neg 0 0
  else
    let b := floorLog2 num den
    let q : Int := max (b - 52) (-1074)
    let s := if q ≥ 0 then roundHalfEven num (den * Nat.pow 2 q.toNat)
      else roundHalfEven (num * Nat.pow 2 (-q).toNat) den
    let (s, q) := if s = Nat.pow 2 53 then (Nat.pow 2 52, q + 1) else (s, q)
    if q + 52 > 1023 then pack neg 0x7FF 0
    else if s < Nat.pow 2 52 then pack neg 0 s
    else pack neg (q + 1075).toNat (s - Nat.pow 2 52)

/-- The double nearest to `±mantissa * 10^exp10`. Values far beyond the range of doubles
give zero or infinity directly, without building their digits. -/
def ofDecimal (neg : Bool) (mantissa : Nat) (exp10 : Int) : Float :=
  let size : Int := (Nat.toDigits 10 mantissa).length
  if mantissa = 0 then nearest neg 0 1
  else if size + exp10 > 330 then pack neg 0x7FF 0
  else if size + exp10 < -350 then nearest neg 0 1
  else if exp10 ≥ 0 then nearest neg (mantissa * Nat.pow 10 exp10.toNat) 1
  else nearest neg mantissa (Nat.pow 10 (-exp10).toNat)

end Binary

end ClipSearch.Decimal
