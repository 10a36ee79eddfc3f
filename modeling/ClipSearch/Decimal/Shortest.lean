import ClipSearch.Decimal.Binary
/-!
The shortest decimal that reads back as a given double.

A finite double `m * 2^q` stands for every real in its rounding interval: half the gap to each
neighbouring double on either side, the ends included when `m` is even (reading rounds ties to
even). For `k = 1, 2, ..., 17` digits, the two decimals of `k` significant digits around the
value are tested against the interval in exact arithmetic; the first `k` with a hit wins, and of
two hits the nearer one (an exact tie takes the even digit string). Seventeen digits always
suffice. Trailing zeros of the digit string are moved into the exponent.
-/
namespace ClipSearch.Decimal

/-- A decimal `digits * 10^exponent`, with `digits` not divisible by ten (or zero). -/
structure Digits where
  digits : Nat
  exponent : Int
  deriving Repr, DecidableEq

/-- Compares `d * 10^e` with `x * 2^s`, exactly. -/
def compareScaled (d : Nat) (e : Int) (x : Nat) (s : Int) : Ordering :=
  compare (d * Nat.pow 10 e.toNat * Nat.pow 2 (-s).toNat)
    (x * Nat.pow 2 s.toNat * Nat.pow 10 (-e).toNat)

/-- `⌊m * 2^q / 10^e⌋`. -/
def floorDiv10 (m : Nat) (q e : Int) : Nat :=
  (m * Nat.pow 2 q.toNat * Nat.pow 10 (-e).toNat) / (Nat.pow 2 (-q).toNat * Nat.pow 10 e.toNat)

/-- The largest `e` with `10^e ≤ m * 2^q`, for positive `m`. -/
def floorLog10 (m : Nat) (q : Int) : Int :=
  let guess : Int := ((q + (m.log2 : Int)) * 30103) / 100000
  let below (e : Int) : Bool := compareScaled 1 e m q != .gt
  -- the guess is within two of the answer
  let e := if below (guess + 2) then guess + 2 else if below (guess + 1) then guess + 1
    else if below guess then guess else if below (guess - 1) then guess - 1 else guess - 2
  e

def Digits.normalize (d : Digits) : Digits :=
  let rec go (fuel n : Nat) (e : Int) : Digits :=
    match fuel with
    | 0 => ⟨n, e⟩
    | fuel + 1 => if n ≠ 0 && n % 10 == 0 then go fuel (n / 10) (e + 1) else ⟨n, e⟩
  go 20 d.digits d.exponent

/-- Whether `d * 10^e` reads back as the positive double `m * 2^q`: it lies inside the
rounding interval, or on one of its ends when `m` is even. `halfBelow` says that the gap below
is half the gap above. The interval is kept in units of `2^(q-2)`. -/
def readsBack (m : Nat) (q : Int) (halfBelow : Bool) (d : Nat) (e : Int) : Bool :=
  let x := 4 * m
  let hi := x + 2
  let lo := if halfBelow then x - 1 else x - 2
  let closed := m % 2 == 0
  let s := q - 2
  let a := compareScaled d e lo s
  let b := compareScaled d e hi s
  (a == .gt || (closed && a == .eq)) && (b == .lt || (closed && b == .eq))

/-- The decimal of `k` significant digits that reads back as `m * 2^q`, when one does: of the two
decimals around the value with leading digit at `10^top`, the one inside the interval, or of
two the nearer (an exact tie takes the even digit string). -/
def pickDigits (m : Nat) (q : Int) (halfBelow : Bool) (top : Int) (k : Nat) : Option Digits :=
  let x := 4 * m
  let s := q - 2
  let e := top - ((k : Int) - 1)
  let dLo := floorDiv10 m q e
  let dHi := dLo + 1
  match readsBack m q halfBelow dLo e, readsBack m q halfBelow dHi e with
  | true, true =>
    -- distances to the value, compared in exact arithmetic
    let dl := (x * Nat.pow 2 s.toNat * Nat.pow 10 (-e).toNat) -
      (dLo * Nat.pow 10 e.toNat * Nat.pow 2 (-s).toNat)
    let dh := (dHi * Nat.pow 10 e.toNat * Nat.pow 2 (-s).toNat) -
      (x * Nat.pow 2 s.toNat * Nat.pow 10 (-e).toNat)
    if dl < dh then some ⟨dLo, e⟩ else if dh < dl then some ⟨dHi, e⟩
    else if dLo % 2 == 0 then some ⟨dLo, e⟩ else some ⟨dHi, e⟩
  | true, false => some ⟨dLo, e⟩
  | false, true => some ⟨dHi, e⟩
  | false, false => none

/-- The shortest digits of the positive double `m * 2^q`; `halfBelow` says that the gap below
is half the gap above. -/
def shortestOf (m : Nat) (q : Int) (halfBelow : Bool) : Digits :=
  let top := floorLog10 m q
  let rec search (k : Nat) (fuel : Nat) : Digits :=
    match fuel with
    | 0 => ⟨floorDiv10 m q (top - 16), top - 16⟩
    | fuel + 1 =>
      match pickDigits m q halfBelow top k with
      | some d => d
      | none => search (k + 1) fuel
  (search 1 17).normalize

/-- The shortest digits of a finite double's magnitude; zero gives `0 * 10^0`. -/
def shortest (x : Float) : Digits :=
  let b := Binary.split x
  if b.significand = 0 then ⟨0, 0⟩ else shortestOf b.significand b.exponent b.lowerGapHalved

end ClipSearch.Decimal
