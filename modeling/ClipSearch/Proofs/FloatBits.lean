import Mathlib
import ClipSearch.Decimal.Binary
/-!
# Doubles by their bit fields

A double is 64 bits: a sign bit, an 11-bit exponent field and a 52-bit fraction field. This
module reads `Binary.split`, `Binary.isSpecial` and `Binary.pack` as arithmetic on the bit
pattern's value (`bitsOf`), so that later proofs compare doubles by their fields: `pack` gives
exactly the fields it is asked for unless they spell a NaN (`toBits_pack`), and a double is
`pack` of its own fields (`pack_eq_of_toBits`).
-/
namespace ClipSearch.Decimal.Binary

open Float.Model Float.Model.UnpackedFloat

/-! ## The fields of a bit pattern -/

theorem toNat_unpackMantissa (b : BitVec 64) :
    (@unpackMantissa Format.binary64 b).toNat = b.toNat % 2 ^ 52 := by
  simp [unpackMantissa, BitVec.extractLsb_toNat]

theorem toNat_unpackExponent (b : BitVec 64) :
    (@unpackExponent Format.binary64 b).toNat = b.toNat / 2 ^ 52 % 2 ^ 11 := by
  simp [unpackExponent, BitVec.extractLsb_toNat, Nat.shiftRight_eq_div_pow]

/-- A bit pattern is a NaN when its exponent field is all ones and its fraction is not zero. -/
theorem isNaNBits_iff (b : BitVec 64) :
    @isNaNBits Format.binary64 b = true ↔ b.toNat / 2 ^ 52 % 2 ^ 11 = 2047 ∧ b.toNat % 2 ^ 52 ≠ 0 := by
  have hm : @unpackMantissa Format.binary64 b = 0#52 ↔ b.toNat % 2 ^ 52 = 0 := by
    rw [← BitVec.toNat_inj, toNat_unpackMantissa]
    simp
  have he : @unpackExponent Format.binary64 b = -1#11 ↔ b.toNat / 2 ^ 52 % 2 ^ 11 = 2047 := by
    rw [← BitVec.toNat_inj, toNat_unpackExponent]
    simp
  simp only [isNaNBits, decide_eq_true_eq, hm, he, ne_eq]

/-- A bit pattern that is no NaN is kept by `Float.ofBits`. -/
theorem toBits_ofBits {b : UInt64} (h : ¬(b.toNat / 2 ^ 52 % 2 ^ 11 = 2047 ∧ b.toNat % 2 ^ 52 ≠ 0)) :
    (Float.ofBits b).toBits = b := by
  have hnan : @isNaNBits Format.binary64 b.toBitVec = false := by
    rw [Bool.eq_false_iff]
    exact fun hn => h ((isNaNBits_iff _).1 hn)
  simp only [Float.ofBits, Float.toBits, Float.Model.ofBits, Float.Model.pack]
  rw [pack_unpack, hnan]
  rfl

theorem toNat_exponentField (b : UInt64) : ((b >>> 52) &&& 0x7FF).toNat = b.toNat / 2 ^ 52 % 2 ^ 11 := by
  rw [UInt64.toNat_and, UInt64.toNat_shiftRight]
  have h : (0x7FF : UInt64).toNat = 2 ^ 11 - 1 := rfl
  rw [h, Nat.and_two_pow_sub_one_eq_mod, Nat.shiftRight_eq_div_pow]
  rfl

theorem toNat_fractionField (b : UInt64) : (b &&& 0xFFFFFFFFFFFFF).toNat = b.toNat % 2 ^ 52 := by
  rw [UInt64.toNat_and]
  have h : (0xFFFFFFFFFFFFF : UInt64).toNat = 2 ^ 52 - 1 := rfl
  rw [h, Nat.and_two_pow_sub_one_eq_mod]

theorem toNat_signField (b : UInt64) : (b >>> 63).toNat = b.toNat / 2 ^ 63 := by
  rw [UInt64.toNat_shiftRight, Nat.shiftRight_eq_div_pow]
  rfl

/-! ## `isSpecial`, `split` and `pack` on the fields -/

/-- A double is special (an infinity or a NaN) exactly when its exponent field is all ones. -/
theorem isSpecial_iff (x : Float) : isSpecial x = true ↔ x.toBits.toNat / 2 ^ 52 % 2 ^ 11 = 2047 := by
  rw [isSpecial, beq_iff_eq, ← UInt64.toNat_inj, toNat_exponentField]
  rfl

theorem split_eq (x : Float) :
    split x =
      let b := x.toBits.toNat
      if b / 2 ^ 52 % 2 ^ 11 = 0 then ⟨b / 2 ^ 63 = 1, b % 2 ^ 52, -1074⟩
      else ⟨b / 2 ^ 63 = 1, b % 2 ^ 52 + 2 ^ 52, ((b / 2 ^ 52 % 2 ^ 11 : Nat) : Int) - 1075⟩ := by
  have hneg : (x.toBits >>> 63 == 1) = decide (x.toBits.toNat / 2 ^ 63 = 1) := by
    rw [Bool.eq_iff_iff, beq_iff_eq, decide_eq_true_eq, ← UInt64.toNat_inj, toNat_signField]
    rfl
  simp only [split, hneg, toNat_exponentField, toNat_fractionField, beq_iff_eq]
  split <;> rfl

/-- The bit pattern with a sign, an exponent field and a fraction field. -/
def bitsOf (neg : Bool) (field frac : Nat) : Nat := (if neg then 2 ^ 63 else 0) + field * 2 ^ 52 + frac

theorem bitsOf_fields (neg : Bool) {field frac : Nat} (hf : field < 2 ^ 11) (hfr : frac < 2 ^ 52) :
    bitsOf neg field frac / 2 ^ 52 % 2 ^ 11 = field ∧ bitsOf neg field frac % 2 ^ 52 = frac ∧
      bitsOf neg field frac / 2 ^ 63 = if neg then 1 else 0 := by
  unfold bitsOf
  cases neg <;> simp only [Bool.false_eq_true, if_false, if_true] <;> omega

theorem toNat_packBits (neg : Bool) {field frac : Nat} (hf : field < 2 ^ 11) (hfr : frac < 2 ^ 52) :
    (((if neg then 1 else 0 : UInt64) <<< 63) ||| (field.toUInt64 <<< 52) ||| frac.toUInt64).toNat =
      bitsOf neg field frac := by
  have hs : (if neg then 1 else 0 : UInt64).toNat = if neg then 1 else 0 := by cases neg <;> rfl
  have hfield : field.toUInt64.toNat = field := by simp; omega
  have hfrac : frac.toUInt64.toNat = frac := by simp; omega
  rw [UInt64.toNat_or, UInt64.toNat_or, UInt64.toNat_shiftLeft, UInt64.toNat_shiftLeft, hs, hfield,
    hfrac]
  have h63 : (63 : UInt64).toNat % 64 = 63 := rfl
  have h52 : (52 : UInt64).toNat % 64 = 52 := rfl
  rw [h63, h52]
  generalize ht : (if neg = true then 1 else 0 : Nat) = t
  have ht1 : t ≤ 1 := by rw [← ht]; split <;> omega
  -- the three fields occupy disjoint bits, so `|||` adds them
  have hA : t <<< 63 % 2 ^ 64 = t <<< 63 := Nat.mod_eq_of_lt (by rw [Nat.shiftLeft_eq]; omega)
  have hB : field <<< 52 % 2 ^ 64 = field <<< 52 := Nat.mod_eq_of_lt (by rw [Nat.shiftLeft_eq]; omega)
  have hlt : field <<< 52 < 2 ^ 63 := by rw [Nat.shiftLeft_eq]; omega
  have hsum : t <<< 63 + field <<< 52 = (t * 2 ^ 11 + field) <<< 52 := by
    simp only [Nat.shiftLeft_eq]
    ring
  rw [hA, hB, ← Nat.shiftLeft_add_eq_or_of_lt hlt, hsum, ← Nat.shiftLeft_add_eq_or_of_lt hfr,
    Nat.shiftLeft_eq, bitsOf]
  cases neg <;> simp only [Bool.false_eq_true, if_false, if_true] at ht ⊢ <;> subst ht <;> ring

/-- `pack` gives the double with exactly the fields asked for, unless they spell a NaN. -/
theorem toBits_pack (neg : Bool) {field frac : Nat} (hf : field < 2 ^ 11) (hfr : frac < 2 ^ 52)
    (hnan : field = 2047 → frac = 0) : (pack neg field frac).toBits.toNat = bitsOf neg field frac := by
  obtain ⟨h1, h2, -⟩ := bitsOf_fields neg hf hfr
  unfold pack
  rw [toBits_ofBits, toNat_packBits neg hf hfr]
  rw [toNat_packBits neg hf hfr, h1, h2]
  omega

/-- A double is `pack` of its own fields. -/
theorem pack_eq_of_toBits {x : Float} {neg : Bool} {field frac : Nat} (hf : field < 2 ^ 11)
    (hfr : frac < 2 ^ 52) (hnan : field = 2047 → frac = 0)
    (h : x.toBits.toNat = bitsOf neg field frac) : pack neg field frac = x := by
  rw [← Float.toBits_inj, ← UInt64.toNat_inj, toBits_pack neg hf hfr hnan, h]

end ClipSearch.Decimal.Binary
