import Mathlib
import ClipSearch.Proofs.Nearest
import ClipSearch.Proofs.Digits
/-!
# Seconds of a count of milliseconds

A clip's duration in seconds is its count of milliseconds read as the nearest double and divided
by `1000.0`. Both steps give finite doubles without sign: a count below `2^64` is far inside the
range (`finiteNonneg_ofDecimal_count`), and division by a thousand rounds the quotient of the
significands at an exponent bounded by the difference of the two binades
(`roundWithAccuracy_positiveUpTo`, `div_positiveUpTo`), so it never reaches infinity and keeps
the sign (`finiteNonneg_div_thousand`).
-/
namespace ClipSearch.Decimal.Binary

open Float.Model Float.Model.UnpackedFloat

/-- An unpacked double that is a positive zero, or finite and positive with an exponent of at
most `B`. -/
def PositiveUpTo (B : Int) : UnpackedFloat → Prop
  | .zero s => s = .positive
  | .finite s _ e _ => s = .positive ∧ e ≤ B
  | _ => False

theorem PositiveUpTo.mono {B B' : Int} {u : UnpackedFloat} (h : PositiveUpTo B u) (hB : B ≤ B') :
    PositiveUpTo B' u := by
  cases u with
  | zero s => exact h
  | finite s m e hm => exact ⟨h.1, h.2.trans hB⟩
  | infinity s => exact h.elim
  | notANumber => exact h.elim

/-! ## Rounding -/

theorem mantissa_shiftRight (em : ExtendedMantissa) (k : ℕ) :
    (em >>> k).mantissa = em.mantissa / 2 ^ k := by
  induction k with
  | zero => simp [HShiftRight.hShiftRight, Nat.repeat]
  | succ k ih =>
    change (ExtendedMantissa.shiftRightOne (em >>> k)).mantissa = _
    rw [ExtendedMantissa.shiftRightOne, ih, Nat.div_div_eq_div_mul, pow_succ]

theorem mantissa_ofMantissaAndAccuracy (m : ℕ) (acc : Accuracy) :
    (ExtendedMantissa.ofMantissaAndAccuracy m acc).mantissa = m := by
  unfold ExtendedMantissa.ofMantissaAndAccuracy
  split <;> rfl

theorem roundedMantissa_le (em : ExtendedMantissa) : em.roundedMantissa ≤ em.mantissa + 1 := by
  obtain ⟨m, r, s⟩ := em
  cases r <;> cases s <;>
    simp only [ExtendedMantissa.roundedMantissa, ExtendedMantissa.accuracy,
      Accuracy.roundToNearestEven] <;> omega

/-- A number at most one above `m / 2^k` has at most the binary digits of `m` shifted by `k`,
and at least one. -/
theorem log2_add_le_of_le_div {r m k : ℕ} (h : r ≤ m / 2 ^ k + 1) :
    r.log2 + k ≤ max k (m.log2 + 1) := by
  rcases Nat.eq_zero_or_pos (m / 2 ^ k) with h0 | hpos
  · have : r.log2 = 0 := by
      rcases Nat.lt_or_ge r 2 with hr | hr
      · interval_cases r <;> rfl
      · omega
    omega
  · have hm : m < 2 ^ (m.log2 + 1) := Nat.lt_log2_self
    have hk : k ≤ m.log2 := by
      by_contra hk
      have : m < 2 ^ k := lt_of_lt_of_le hm (Nat.pow_le_pow_right (by norm_num) (by omega))
      rw [Nat.div_eq_of_lt this] at hpos
      exact absurd hpos (lt_irrefl 0)
    have hdiv : m / 2 ^ k < 2 ^ (m.log2 + 1 - k) := by
      rw [Nat.div_lt_iff_lt_mul (by positivity), ← pow_add, Nat.sub_add_cancel (by omega)]
      exact hm
    have hr : r < 2 ^ (m.log2 + 2 - k) := by
      have : 2 ^ (m.log2 + 2 - k) = 2 * 2 ^ (m.log2 + 1 - k) := by
        rw [← pow_succ']
        congr 1
        omega
      have : 0 < 2 ^ (m.log2 + 1 - k) := by positivity
      omega
    rcases Nat.eq_zero_or_pos r with h0 | hr0
    · subst h0
      simp
    · have := (Nat.log2_lt hr0.ne').2 hr
      omega

/-- The exponent `roundWithAccuracy` ends at: at most the larger of the given exponent and the
exponent at which `m` keeps one bit beyond the format's 53 (for a carry), and never below the
least exponent. -/
theorem roundWithAccuracy_positiveUpTo (m : ℕ) (e : ℤ) (acc : Accuracy) :
    PositiveUpTo (max e (max ((m.log2 : ℤ) + e - 51) (-1074)))
      (roundWithAccuracy Format.binary64 .positive m e acc) := by
  unfold roundWithAccuracy shiftToTargetExponent shiftToExponent
  simp only [mantissa_shiftRight, mantissa_ofMantissaAndAccuracy]
  split
  · rfl
  · refine ⟨rfl, ?_⟩
    have h53 : Format.binary64.mantissaBits = 53 := rfl
    have hmin : Format.binary64.minExponent = -1074 := rfl
    set k := (Format.binary64.targetExponent (totalExponent m e) - e).toNat with hk
    have hr := roundedMantissa_le (ExtendedMantissa.ofMantissaAndAccuracy m acc >>> k)
    rw [mantissa_shiftRight, mantissa_ofMantissaAndAccuracy] at hr
    generalize (ExtendedMantissa.ofMantissaAndAccuracy m acc >>> k).roundedMantissa = r at hr ⊢
    have hlog := log2_add_le_of_le_div hr
    simp only [Format.targetExponent, totalExponent, h53, hmin] at hk ⊢
    omega

/-! ## Division -/

/-- A whole quotient has at most the binary digits of the dividend less those of the divisor. -/
theorem log2_quotient_le {a b s : ℕ} (hb : 0 < b) (h : 0 < a * 2 ^ s / b) :
    (a * 2 ^ s / b).log2 + b.log2 ≤ a.log2 + s := by
  set q := a * 2 ^ s / b
  have hq : 2 ^ q.log2 ≤ q := Nat.log2_self_le h.ne'
  have hqb : q * b ≤ a * 2 ^ s := Nat.div_mul_le_self _ _
  have hb' : 2 ^ b.log2 ≤ b := Nat.log2_self_le hb.ne'
  have ha : a < 2 ^ (a.log2 + 1) := Nat.lt_log2_self
  have hlt : 2 ^ (q.log2 + b.log2) < 2 ^ (a.log2 + 1 + s) :=
    calc 2 ^ (q.log2 + b.log2) = 2 ^ q.log2 * 2 ^ b.log2 := pow_add _ _ _
      _ ≤ q * b := Nat.mul_le_mul hq hb'
      _ ≤ a * 2 ^ s := hqb
      _ < 2 ^ (a.log2 + 1) * 2 ^ s := Nat.mul_lt_mul_of_pos_right ha (by positivity)
      _ = 2 ^ (a.log2 + 1 + s) := (pow_add _ _ _).symm
  have := (Nat.pow_lt_pow_iff_right (by norm_num)).1 hlt
  omega

/-- Dividing two positive finite values ends at an exponent bounded by the difference of their
binades. -/
theorem div_positiveUpTo (m₁ m₂ : ℕ) (e₁ e₂ : ℤ) (h₁ : 0 < m₁) (h₂ : 0 < m₂) :
    PositiveUpTo (max ((m₁.log2 : ℤ) + e₁ - m₂.log2 - e₂ - 51) (-1074))
      (UnpackedFloat.div Format.binary64 (.finite .positive m₁ e₁ h₁) (.finite .positive m₂ e₂ h₂)) := by
  have hsign : Sign.positive / Sign.positive = Sign.positive := rfl
  have h53 : Format.binary64.mantissaBits = 53 := rfl
  have hmin : Format.binary64.minExponent = -1074 := rfl
  simp only [UnpackedFloat.div, divCore, hsign]
  refine (roundWithAccuracy_positiveUpTo _ _ _).mono ?_
  simp only [Format.targetExponent, totalExponent, h53, hmin, Nat.shiftLeft_eq]
  generalize hs : (e₁ - e₂ - min (e₁ - e₂) (max (↑m₁.log2 + 1 + e₁ - (↑m₂.log2 + 1 + e₂) - 53) (-1074))).toNat = s
  rcases Nat.eq_zero_or_pos (m₁ * 2 ^ s / m₂) with h0 | hpos
  · rw [h0]
    simp only [Nat.log2_zero, Nat.cast_zero]
    omega
  · have := log2_quotient_le h₂ hpos
    omega

/-! ## From and back to doubles -/

theorem toNat_unpackSign (b : BitVec 64) :
    (@unpackSign Format.binary64 b).toNat = b.toNat / 2 ^ 63 := by
  simp [unpackSign, BitVec.extractLsb_toNat, Nat.shiftRight_eq_div_pow]
  have := b.isLt
  omega

theorem unpack_of_finiteNonneg {x : Float} (hx : FiniteNonneg x) :
    x.toModel.unpack = if h : (split x).significand = 0 then .zero .positive
      else .finite .positive (split x).significand (split x).exponent (Nat.pos_of_ne_zero h) := by
  have hbits : x.toModel.toBits.toBitVec.toNat = x.toBits.toNat := rfl
  have hsign : @unpackSign Format.binary64 x.toModel.toBits.toBitVec = 0#1 := by
    rw [← BitVec.toNat_inj, toNat_unpackSign, hbits]
    have := hx.sign
    simp only [BitVec.toNat_ofNat]
    omega
  have hexp : (@unpackExponent Format.binary64 x.toModel.toBits.toBitVec).toNat = fieldOf x := by
    rw [toNat_unpackExponent, hbits]
    rfl
  have hman : (@unpackMantissa Format.binary64 x.toModel.toBits.toBitVec).toNat = fracOf x := by
    rw [toNat_unpackMantissa, hbits]
    rfl
  have hF : fieldOf x ≠ 2047 := hx.finite
  have hM : fracOf x < 2 ^ 52 := Nat.mod_lt _ (by norm_num)
  have he1 : ¬@unpackExponent Format.binary64 x.toModel.toBits.toBitVec = -1#11 := by
    rw [← BitVec.toNat_inj, hexp]
    simpa using hF
  have he0 : @unpackExponent Format.binary64 x.toModel.toBits.toBitVec = 0#11 ↔ fieldOf x = 0 := by
    rw [← BitVec.toNat_inj, hexp]
    simp
  have hm0 : @unpackMantissa Format.binary64 x.toModel.toBits.toBitVec = 0#52 ↔ fracOf x = 0 := by
    rw [← BitVec.toNat_inj, hman]
    simp
  have hnormal : (1#1 ++ @unpackMantissa Format.binary64 x.toModel.toBits.toBitVec).toNat =
      fracOf x + 2 ^ 52 := by
    rw [BitVec.toNat_append, hman, ← Nat.shiftLeft_add_eq_or_of_lt hM, Nat.shiftLeft_eq]
    simp only [BitVec.toNat_ofNat]
    omega
  have hpos : Sign.ofBitVec 0#1 = Sign.positive := rfl
  have hbias : (Format.binary64.exponentBias : ℤ) = 1023 := rfl
  unfold Float.Model.unpack UnpackedFloat.unpack
  rw [hx.split_eq]
  simp only [hsign, he1, if_false, he0, hm0, hexp, hman, hnormal, hpos, hbias]
  by_cases h0 : fieldOf x = 0
  · by_cases hf : fracOf x = 0
    · simp [h0, hf]
    · simp only [h0, if_true, hf, dif_neg, not_false_eq_true]
      norm_num
  · simp only [h0, if_false]
    rw [dif_neg (by omega)]
    norm_num

theorem toNat_packComponents_positive (E : BitVec 11) (M : BitVec 52) :
    (packComponents Format.binary64 .positive E M).toNat = E.toNat * 2 ^ 52 + M.toNat := by
  have hM := M.isLt
  rw [packComponents, BitVec.toNat_append, BitVec.toNat_append, ← Nat.shiftLeft_add_eq_or_of_lt hM]
  simp [Sign.toBitVec, Nat.shiftLeft_eq]

/-- A positive zero, or a positive value whose exponent stays below the top of the range, packs
to a finite double without sign. -/
theorem finiteNonneg_pack {u : UnpackedFloat} (h : PositiveUpTo 971 u) :
    FiniteNonneg (Float.ofModel (Float.Model.pack u)) := by
  have hbits : (Float.ofModel (Float.Model.pack u)).toBits.toNat =
      (UnpackedFloat.pack Format.binary64 u).toNat := rfl
  cases u with
  | zero s =>
    obtain rfl : s = .positive := h
    have : (UnpackedFloat.pack Format.binary64 (.zero .positive)).toNat = 0 := by
      rw [UnpackedFloat.pack, packedZero, toNat_packComponents_positive]
      rfl
    constructor <;> rw [hbits, this] <;> norm_num
  | finite s m e hm =>
    obtain ⟨rfl, he⟩ := h
    have hbias : (Format.binary64.exponentBias : ℤ) = 1023 := rfl
    have hM : m % 2 ^ 52 < 2 ^ 52 := Nat.mod_lt _ (by norm_num)
    -- the packed exponent field is below all ones: no overflow to infinity
    have hfield : (e + Format.binary64.exponentBias + 52).toNat < 2047 := by
      rw [hbias]
      omega
    rw [UnpackedFloat.pack] at hbits
    simp only [if_neg (show ¬(2 ^ Format.binary64.exponentBits ≤
      (e + Format.binary64.exponentBias + Format.binary64.mantissaBitsWithoutImplicit).toNat + 1) by
        change ¬(2 ^ 11 ≤ (e + Format.binary64.exponentBias + 52).toNat + 1); omega)] at hbits
    split at hbits
    · rw [toNat_packComponents_positive] at hbits
      simp only [BitVec.toNat_ofNat] at hbits
      constructor <;> rw [hbits] <;> omega
    · rw [toNat_packComponents_positive] at hbits
      simp only [BitVec.toNat_ofNat] at hbits
      constructor <;> rw [hbits] <;> omega
  | infinity s => exact h.elim
  | notANumber => exact h.elim

/-- Dividing a finite double without sign by a thousand gives a finite double without sign. -/
theorem finiteNonneg_div_thousand {x : Float} (hx : FiniteNonneg x) : FiniteNonneg (x / 1000.0) := by
  have hy : (1000.0 : Float).toModel.unpack = .finite .positive 8796093022208000 (-43) (by norm_num) :=
    rfl
  have hq : x / 1000.0 = Float.ofModel (Float.Model.pack
      (UnpackedFloat.div Format.binary64 x.toModel.unpack (1000.0 : Float).toModel.unpack)) := rfl
  have hlog : Nat.log2 8796093022208000 = 52 := by decide
  obtain ⟨hm, -, he⟩ := hx.split_bounds
  rw [hq, hy, unpack_of_finiteNonneg hx]
  apply finiteNonneg_pack
  split
  · exact rfl
  · refine (div_positiveUpTo _ _ _ _ _ _).mono ?_
    have : (split x).significand.log2 < 53 := (Nat.log2_lt (by omega)).2 hm
    rw [hlog]
    omega

/-- A count below `2^64` reads as the nearest double to it: its twenty digits at most are far
inside the range `ofDecimal` reads directly. -/
theorem ofDecimal_count {n : ℕ} (h : n < 2 ^ 64) : ofDecimal false n 0 = nearest false n 1 := by
  have hlen : (Nat.toDigits 10 n).length ≤ 20 :=
    length_toDigits_le (lt_trans h (by norm_num)) (by norm_num)
  unfold ofDecimal
  simp only
  rcases Nat.eq_zero_or_pos n with h0 | hpos
  · rw [if_pos h0, h0]
  · rw [if_neg (by omega), if_neg (by omega), if_neg (by omega), if_pos le_rfl]
    simp only [Int.toNat_zero, Nat.pow_eq, pow_zero, mul_one]

/-- A count below `2^64` reads as a finite double without sign. -/
theorem finiteNonneg_ofDecimal_count {n : ℕ} (h : n < 2 ^ 64) : FiniteNonneg (ofDecimal false n 0) := by
  rw [ofDecimal_count h]
  refine finiteNonneg_nearest one_pos ?_
  rw [Nat.cast_one, div_one]
  calc (n : ℚ) < 2 ^ 64 := by exact_mod_cast h
    _ ≤ 2 ^ ((1023 : ℕ) : ℤ) := by
      rw [zpow_natCast]
      exact pow_le_pow_right₀ (by norm_num) (by norm_num)

end ClipSearch.Decimal.Binary
