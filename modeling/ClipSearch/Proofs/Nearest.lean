import Mathlib
import ClipSearch.Proofs.FloatBits
/-!
# Correct rounding of `nearest`

`Binary.nearest false num den` rounds the rational `num / den` to a double. Its exponent is the
binade's (`nearest_exponent`), its significand the quotient at that exponent rounded half to
even (`roundScaled_eq`). The main statement, `Binary.nearest_eq_of_rounds`, reads every
rational in the rounding interval `Binary.Rounds` of a finite double without sign back as that
double: the interval is half a gap on either side, halved below the bottom of a binade, with
its ends when the significand is even.
-/
namespace ClipSearch.Decimal

/-! ## Scaled comparisons -/

/-- Multiplying by `B ^ e` and by `B` to the negated exponent's natural part gives `B` to the
natural part of `e`. -/
theorem zpow_mul_pow_toNat_neg {B : ℚ} (hB : B ≠ 0) (e : ℤ) :
    B ^ e * B ^ (-e).toNat = B ^ e.toNat := by
  rcases le_or_gt 0 e with he | he
  · rw [show (-e).toNat = 0 by omega, pow_zero, mul_one, ← zpow_natCast, Int.toNat_of_nonneg he]
  · rw [show e.toNat = 0 by omega, pow_zero, ← zpow_natCast, ← zpow_add₀ hB,
      Int.toNat_of_nonneg (by omega)]
    simp

/-- The test `den * 2^e ≤ num` in natural numbers, with the exponent's sign moved across. -/
theorem scaled_le_iff {num den : ℕ} (hden : 0 < den) (e : ℤ) :
    den * 2 ^ e.toNat ≤ num * 2 ^ (-e).toNat ↔ (2 : ℚ) ^ e ≤ num / den := by
  have hpos : (0 : ℚ) < 2 ^ (-e).toNat := by positivity
  have hd : (0 : ℚ) < den := by exact_mod_cast hden
  rw [le_div_iff₀ hd, ← mul_le_mul_iff_of_pos_right hpos, mul_right_comm,
    zpow_mul_pow_toNat_neg (by norm_num), mul_comm]
  norm_cast

theorem two_pow_log2_le {n : ℕ} (hn : 0 < n) : (2 : ℚ) ^ (n.log2 : ℤ) ≤ n := by
  rw [zpow_natCast]
  exact_mod_cast Nat.log2_self_le (by omega)

theorem lt_two_pow_log2_succ (n : ℕ) : (n : ℚ) < 2 ^ ((n.log2 : ℤ) + 1) := by
  rw [← Nat.cast_succ, zpow_natCast]
  exact_mod_cast Nat.lt_log2_self

/-- `floorLog2` is the exponent of the binade that holds `num / den`. -/
theorem floorLog2_spec {num den : ℕ} (hnum : 0 < num) (hden : 0 < den) :
    (2 : ℚ) ^ Binary.floorLog2 num den ≤ num / den ∧
      (num : ℚ) / den < 2 ^ (Binary.floorLog2 num den + 1) := by
  have hd : (0 : ℚ) < den := by exact_mod_cast hden
  have h2 : (2 : ℚ) ≠ 0 := by norm_num
  set g : ℤ := (num.log2 : ℤ) - (den.log2 : ℤ) with hg
  have hlt : (num : ℚ) / den < 2 ^ (g + 1) := by
    rw [div_lt_iff₀ hd]
    calc (num : ℚ) < 2 ^ ((num.log2 : ℤ) + 1) := lt_two_pow_log2_succ num
      _ = 2 ^ (g + 1) * 2 ^ (den.log2 : ℤ) := by rw [← zpow_add₀ h2]; congr 1; omega
      _ ≤ 2 ^ (g + 1) * den := by gcongr; exact two_pow_log2_le hden
  have hgt : (2 : ℚ) ^ (g - 1) < num / den := by
    rw [lt_div_iff₀ hd]
    calc (2 : ℚ) ^ (g - 1) * den < 2 ^ (g - 1) * 2 ^ ((den.log2 : ℤ) + 1) := by
          gcongr; exact lt_two_pow_log2_succ den
      _ = 2 ^ (num.log2 : ℤ) := by rw [← zpow_add₀ h2]; congr 1; omega
      _ ≤ num := two_pow_log2_le hnum
  unfold Binary.floorLog2
  simp only [Nat.pow_eq, ← hg]
  split
  · next h => exact ⟨(scaled_le_iff hden g).1 h, hlt⟩
  · next h =>
    refine ⟨hgt.le, ?_⟩
    rw [sub_add_cancel]
    exact lt_of_not_ge fun h' => h ((scaled_le_iff hden g).2 h')

/-- `roundHalfEven` in natural numbers: `n` is the result when `num` lies within half a `den`
of `n * den`, an exact half allowed only for an even `n`. -/
theorem roundHalfEven_eq_of_nat {num den n : ℕ} (hden : 0 < den)
    (hlo : 2 * (n * den) < 2 * num + den ∨ (n % 2 = 0 ∧ 2 * (n * den) = 2 * num + den))
    (hhi : 2 * num < 2 * (n * den) + den ∨ (n % 2 = 0 ∧ 2 * num = 2 * (n * den) + den)) :
    Binary.roundHalfEven num den = n := by
  have hdiv := Nat.div_add_mod num den
  have hr := Nat.mod_lt num hden
  have hle : num / den ≤ n := by
    rw [← Nat.lt_succ_iff, Nat.div_lt_iff_lt_mul hden]
    rw [Nat.succ_mul]
    omega
  have hge : n ≤ num / den + 1 := by
    rw [← Nat.sub_le_iff_le_add, Nat.le_div_iff_mul_le hden, Nat.sub_mul, one_mul]
    omega
  rw [Nat.mul_comm] at hdiv
  unfold Binary.roundHalfEven
  simp only
  rcases Nat.eq_or_lt_of_le hle with heq | hlt
  · rw [heq] at hdiv ⊢
    split
    · next h => simp only [Bool.or_eq_true, decide_eq_true_eq, Bool.and_eq_true, beq_iff_eq] at h; omega
    · rfl
  · have heq : num / den + 1 = n := by omega
    rw [← heq] at hlo hhi
    rw [Nat.add_mul, one_mul] at hlo hhi
    split
    · exact heq
    · next h => simp only [Bool.or_eq_true, decide_eq_true_eq, Bool.and_eq_true, beq_iff_eq, not_or,
        not_and] at h; omega

/-- `t` rounds to the whole number `n`, a tie going to the even one. -/
def RoundsTo (n : ℕ) (t : ℚ) : Prop :=
  ((n : ℚ) - 1 / 2 < t ∨ (n % 2 = 0 ∧ (n : ℚ) - 1 / 2 = t)) ∧
    (t < n + 1 / 2 ∨ (n % 2 = 0 ∧ t = n + 1 / 2))

/-- Rounding a quotient, with the denominator cleared: each bound is a statement about
`2 * num` and `den`. -/
theorem roundsTo_div_iff {num den n : ℕ} (hden : 0 < den) :
    RoundsTo n ((num : ℚ) / den) ↔
      (2 * (n * den) < 2 * num + den ∨ (n % 2 = 0 ∧ 2 * (n * den) = 2 * num + den)) ∧
        (2 * num < 2 * (n * den) + den ∨ (n % 2 = 0 ∧ 2 * num = 2 * (n * den) + den)) := by
  have hd : (0 : ℚ) < den := by exact_mod_cast hden
  have e1 : ((n : ℚ) - 1 / 2 < num / den) ↔ ((2 * (n * den) : ℕ) : ℚ) < ((2 * num + den : ℕ) : ℚ) := by
    rw [lt_div_iff₀ hd]
    push_cast
    constructor <;> intro h <;> linarith
  have e2 : ((n : ℚ) - 1 / 2 = num / den) ↔ ((2 * (n * den) : ℕ) : ℚ) = ((2 * num + den : ℕ) : ℚ) := by
    rw [eq_div_iff hd.ne']
    push_cast
    constructor <;> intro h <;> linarith
  have e3 : ((num : ℚ) / den < n + 1 / 2) ↔ ((2 * num : ℕ) : ℚ) < ((2 * (n * den) + den : ℕ) : ℚ) := by
    rw [div_lt_iff₀ hd]
    push_cast
    constructor <;> intro h <;> linarith
  have e4 : ((num : ℚ) / den = n + 1 / 2) ↔ ((2 * num : ℕ) : ℚ) = ((2 * (n * den) + den : ℕ) : ℚ) := by
    rw [div_eq_iff hd.ne']
    push_cast
    constructor <;> intro h <;> linarith
  rw [RoundsTo, e1, e2, e3, e4, Nat.cast_lt, Nat.cast_inj, Nat.cast_lt, Nat.cast_inj]

theorem roundHalfEven_eq {num den n : ℕ} (hden : 0 < den) (h : RoundsTo n (num / den)) :
    Binary.roundHalfEven num den = n := by
  obtain ⟨hlo, hhi⟩ := (roundsTo_div_iff hden).1 h
  exact roundHalfEven_eq_of_nat hden hlo hhi

/-- `roundHalfEven` rounds the quotient half to even. -/
theorem roundsTo_roundHalfEven {num den : ℕ} (hden : 0 < den) :
    RoundsTo (Binary.roundHalfEven num den) (num / den) := by
  have hdiv := Nat.div_add_mod num den
  have hr := Nat.mod_lt num hden
  rw [Nat.mul_comm] at hdiv
  rw [roundsTo_div_iff hden]
  unfold Binary.roundHalfEven
  simp only
  -- rounded up when twice the remainder passes the denominator, or meets it at an odd quotient
  split
  · next h =>
    simp only [Bool.or_eq_true, decide_eq_true_eq, Bool.and_eq_true, beq_iff_eq] at h
    rw [Nat.add_mul, one_mul]
    omega
  · next h =>
    simp only [Bool.or_eq_true, decide_eq_true_eq, Bool.and_eq_true, beq_iff_eq, not_or,
      not_and] at h
    omega

theorem div_div_two_zpow_of_nonneg (num den : ℕ) {q : ℤ} (hq : 0 ≤ q) :
    (num : ℚ) / den / 2 ^ q = ((num : ℕ) : ℚ) / ((den * 2 ^ q.toNat : ℕ) : ℚ) := by
  rw [div_div]
  push_cast
  rw [← zpow_natCast, Int.toNat_of_nonneg hq]

theorem div_div_two_zpow_of_neg (num den : ℕ) {q : ℤ} (hq : q < 0) :
    (num : ℚ) / den / 2 ^ q = ((num * 2 ^ (-q).toNat : ℕ) : ℚ) / den := by
  have h2 : (2 : ℚ) ^ q = ((2 : ℚ) ^ (-q).toNat)⁻¹ := by
    rw [← zpow_natCast, Int.toNat_of_nonneg (by omega), zpow_neg, inv_inv]
  rw [h2, div_inv_eq_mul, div_mul_eq_mul_div]
  push_cast
  rfl

/-- The significand `nearest` computes at exponent `q`: `num / den / 2^q` rounded half to even,
in whole numbers on either side of the point. -/
theorem roundsTo_roundScaled {num den : ℕ} (q : ℤ) (hden : 0 < den) :
    RoundsTo (if q ≥ 0 then Binary.roundHalfEven num (den * 2 ^ q.toNat)
      else Binary.roundHalfEven (num * 2 ^ (-q).toNat) den) ((num : ℚ) / den / 2 ^ q) := by
  split
  · next hq =>
    rw [div_div_two_zpow_of_nonneg num den hq]
    exact roundsTo_roundHalfEven (by positivity)
  · next hq =>
    rw [div_div_two_zpow_of_neg num den (by omega)]
    exact roundsTo_roundHalfEven hden

theorem roundScaled_eq {num den n : ℕ} {q : ℤ} (hden : 0 < den)
    (h : RoundsTo n ((num : ℚ) / den / 2 ^ q)) :
    (if q ≥ 0 then Binary.roundHalfEven num (den * 2 ^ q.toNat)
      else Binary.roundHalfEven (num * 2 ^ (-q).toNat) den) = n := by
  split
  · next hq =>
    rw [div_div_two_zpow_of_nonneg num den hq] at h
    exact roundHalfEven_eq (by positivity) h
  · next hq =>
    rw [div_div_two_zpow_of_neg num den (by omega)] at h
    exact roundHalfEven_eq hden h

theorem RoundsTo.bounds {n : ℕ} {t : ℚ} (h : RoundsTo n t) : (n : ℚ) - 1 / 2 ≤ t ∧ t ≤ n + 1 / 2 := by
  obtain ⟨h1 | ⟨-, h1⟩, h2 | ⟨-, h2⟩⟩ := h <;> constructor <;> linarith

/-- The binade of `num / den` fixes `nearest`'s exponent once the value is known to lie in the
binade of a significand `m` at exponent `e` (or below the normal range). -/
theorem nearest_exponent {num den : ℕ} {e : ℤ} (hnum : 0 < num) (hden : 0 < den) (he : -1074 ≤ e)
    (hhi : (num : ℚ) / den < 2 ^ (53 + e)) (hlo : -1074 < e → 2 ^ (52 + e) ≤ (num : ℚ) / den) :
    max (Binary.floorLog2 num den - 52) (-1074) = e := by
  obtain ⟨hb1, hb2⟩ := floorLog2_spec hnum hden
  have hup : Binary.floorLog2 num den < 53 + e :=
    (zpow_lt_zpow_iff_right₀ (by norm_num : (1 : ℚ) < 2)).1 (lt_of_le_of_lt hb1 hhi)
  rcases eq_or_lt_of_le he with heq | hgt
  · omega
  · have hdown : 52 + e < Binary.floorLog2 num den + 1 :=
      (zpow_lt_zpow_iff_right₀ (by norm_num : (1 : ℚ) < 2)).1 (lt_of_le_of_lt (hlo hgt) hb2)
    omega

/-- `nearest` packs the significand it rounds to at the exponent of the binade. -/
theorem nearest_of_round {num den n : ℕ} {e : ℤ} (hnum : 0 < num) (hden : 0 < den)
    (hq : max (Binary.floorLog2 num den - 52) (-1074) = e)
    (hn : RoundsTo n ((num : ℚ) / den / 2 ^ e)) :
    Binary.nearest false num den =
      let p : Nat × Int := if n = 2 ^ 53 then (2 ^ 52, e + 1) else (n, e)
      if p.2 + 52 > 1023 then Binary.pack false 0x7FF 0
      else if p.1 < 2 ^ 52 then Binary.pack false 0 p.1
      else Binary.pack false (p.2 + 1075).toNat (p.1 - 2 ^ 52) := by
  rw [Binary.nearest, if_neg (by omega)]
  simp only [hq, Nat.pow_eq]
  rw [roundScaled_eq hden hn]

theorem two_zpow_add (k : ℕ) (e : ℤ) : (2 : ℚ) ^ ((k : ℤ) + e) = 2 ^ k * 2 ^ e := by
  rw [zpow_add₀ (by norm_num), zpow_natCast]

theorem num_pos_of_lt {num den : ℕ} {c : ℚ} (hc : 0 < c) (h : c ≤ (num : ℚ) / den) : 0 < num := by
  rcases Nat.eq_zero_or_pos num with h0 | h0
  · rw [h0] at h; simp at h; linarith
  · exact h0

/-- A value that rounds to the significand `m` at the exponent `e` of a double's binade reads
as that double. -/
theorem nearest_of_roundsTo {num den m : ℕ} {e : ℤ} (hden : 0 < den) (hm0 : 0 < m)
    (hm : m < 2 ^ 53) (he : -1074 ≤ e) (he' : e ≤ 971) (hedge : -1074 < e → 2 ^ 52 < m)
    (hn : RoundsTo m ((num : ℚ) / den / 2 ^ e)) :
    Binary.nearest false num den =
      if m < 2 ^ 52 then Binary.pack false 0 m else Binary.pack false (e + 1075).toNat (m - 2 ^ 52) := by
  have h2 : (0 : ℚ) < 2 ^ e := by positivity
  obtain ⟨hl, hu⟩ := hn.bounds
  rw [le_div_iff₀ h2] at hl
  rw [div_le_iff₀ h2] at hu
  have hmq : (m : ℚ) + 1 / 2 < 2 ^ 53 := by
    have : (m : ℚ) + 1 ≤ 2 ^ 53 := by exact_mod_cast hm
    linarith
  have hm1 : (1 : ℚ) ≤ m := by exact_mod_cast hm0
  have hnum : 0 < num := num_pos_of_lt (by nlinarith) hl
  have hq : max (Binary.floorLog2 num den - 52) (-1074) = e := by
    apply nearest_exponent hnum hden he
    · rw [show (53 : ℤ) + e = ((53 : ℕ) : ℤ) + e from rfl, two_zpow_add]
      calc (num : ℚ) / den ≤ (m + 1 / 2) * 2 ^ e := hu
        _ < 2 ^ 53 * 2 ^ e := by gcongr
    · intro hgt
      have : (2 : ℚ) ^ 52 + 1 ≤ m := by exact_mod_cast hedge hgt
      rw [show (52 : ℤ) + e = ((52 : ℕ) : ℤ) + e from rfl, two_zpow_add]
      calc (2 : ℚ) ^ 52 * 2 ^ e ≤ (m - 1 / 2) * 2 ^ e := by gcongr; linarith
        _ ≤ num / den := hl
  rw [nearest_of_round hnum hden hq hn]
  simp only [show m ≠ 2 ^ 53 by omega, if_false, show ¬(e + 52 > 1023) by omega]

/-- At the bottom of a binade the gap below is half the gap above: a value from a quarter gap
below to half a gap above `2^52 * 2^e` reads as that double, rounded up from the binade below
when it falls there. -/
theorem nearest_of_bottom {num den : ℕ} {e : ℤ} (hden : 0 < den) (he : -1074 < e) (he' : e ≤ 971)
    (hlo : (2 ^ 52 - 1 / 4) * 2 ^ e ≤ (num : ℚ) / den) (hhi : (num : ℚ) / den ≤ (2 ^ 52 + 1 / 2) * 2 ^ e) :
    Binary.nearest false num den = Binary.pack false (e + 1075).toNat 0 := by
  have h2 : (0 : ℚ) < 2 ^ e := by positivity
  have hnum : 0 < num := num_pos_of_lt (by positivity) hlo
  have hup : (num : ℚ) / den < 2 ^ (53 + e) := by
    rw [show (53 : ℤ) + e = ((53 : ℕ) : ℤ) + e from rfl, two_zpow_add]
    calc (num : ℚ) / den ≤ (2 ^ 52 + 1 / 2) * 2 ^ e := hhi
      _ < 2 ^ 53 * 2 ^ e := by gcongr; norm_num
  rcases le_or_gt ((2 : ℚ) ^ (52 + e)) ((num : ℚ) / den) with hin | hbelow
  · -- in the binade itself: the significand rounds to `2^52`
    have hq := nearest_exponent hnum hden he.le hup fun _ => hin
    have hn : RoundsTo (2 ^ 52) ((num : ℚ) / den / 2 ^ e) := by
      rw [show (52 : ℤ) + e = ((52 : ℕ) : ℤ) + e from rfl, two_zpow_add, ← le_div_iff₀ h2] at hin
      rw [← div_le_iff₀ h2] at hhi
      push_cast
      refine ⟨.inl (by linarith), ?_⟩
      rcases lt_or_eq_of_le hhi with h | h
      · exact .inl h
      · exact .inr ⟨by norm_num, h⟩
    rw [nearest_of_round hnum hden hq hn]
    simp only [show (2 : ℕ) ^ 52 ≠ 2 ^ 53 by norm_num, if_false, show ¬(e + 52 > 1023) by omega,
      lt_irrefl, Nat.sub_self]
  · -- just below the binade: it rounds up to `2^53` at the exponent below
    have hq : max (Binary.floorLog2 num den - 52) (-1074) = e - 1 :=
      nearest_exponent hnum hden (by omega) (by rw [show 53 + (e - 1) = 52 + e by ring]; exact hbelow)
        fun _ => by
          rw [show (52 : ℤ) + (e - 1) = ((51 : ℕ) : ℤ) + e by push_cast; ring, two_zpow_add]
          calc (2 : ℚ) ^ 51 * 2 ^ e ≤ (2 ^ 52 - 1 / 4) * 2 ^ e := by gcongr; norm_num
            _ ≤ (num : ℚ) / den := hlo
    have hn : RoundsTo (2 ^ 53) ((num : ℚ) / den / 2 ^ (e - 1)) := by
      have hhalf : (2 : ℚ) ^ (e - 1) = 2 ^ e / 2 := by rw [zpow_sub₀ (by norm_num), zpow_one]
      rw [show (52 : ℤ) + e = ((52 : ℕ) : ℤ) + e from rfl, two_zpow_add] at hbelow
      rw [hhalf, div_div_eq_mul_div]
      push_cast
      constructor
      · rcases lt_or_eq_of_le hlo with h | h
        · left
          rw [lt_div_iff₀ h2]
          linarith
        · right
          refine ⟨by norm_num, ?_⟩
          rw [eq_div_iff h2.ne']
          linarith
      · left
        rw [div_lt_iff₀ h2]
        linarith
    rw [nearest_of_round hnum hden hq hn]
    simp only [if_true, lt_irrefl, Nat.sub_self, sub_add_cancel, show ¬(e + 52 > 1023) by omega,
      if_false]

namespace Binary

/-- A double with its sign bit clear that is neither an infinity nor a NaN. -/
structure FiniteNonneg (x : Float) : Prop where
  sign : x.toBits.toNat < 2 ^ 63
  finite : x.toBits.toNat / 2 ^ 52 % 2 ^ 11 ≠ 2047

def fieldOf (x : Float) : Nat := x.toBits.toNat / 2 ^ 52 % 2 ^ 11

def fracOf (x : Float) : Nat := x.toBits.toNat % 2 ^ 52

theorem FiniteNonneg.bits {x : Float} (hx : FiniteNonneg x) :
    x.toBits.toNat = bitsOf false (fieldOf x) (fracOf x) := by
  have := hx.sign
  simp only [bitsOf, fieldOf, fracOf, Bool.false_eq_true, if_false]
  omega

/-- `pack` without sign and with an exponent field below all ones is finite. -/
theorem finiteNonneg_pack_of_lt {field frac : Nat} (hF : field < 2047) (hM : frac < 2 ^ 52) :
    FiniteNonneg (pack false field frac) := by
  have hbits := toBits_pack false (show field < 2 ^ 11 by omega) hM (by omega)
  obtain ⟨h1, -, h3⟩ := bitsOf_fields false (show field < 2 ^ 11 by omega) hM
  simp only [Bool.false_eq_true, if_false] at h3
  constructor <;> rw [hbits]
  · omega
  · omega

theorem FiniteNonneg.split_eq {x : Float} (hx : FiniteNonneg x) :
    split x = if fieldOf x = 0 then ⟨false, fracOf x, -1074⟩
      else ⟨false, fracOf x + 2 ^ 52, (fieldOf x : Int) - 1075⟩ := by
  have hs : ¬x.toBits.toNat / 2 ^ 63 = 1 := by have := hx.sign; omega
  rw [Binary.split_eq]
  simp only [decide_eq_false hs, fieldOf, fracOf]
  split_ifs <;> simp_all

/-- A quarter of the gap above `b`: the unit its rounding interval is measured in. -/
def quarter (b : Binary) : ℚ := 2 ^ (b.exponent - 2)

/-- The lower end of the rounding interval of `b`: half the gap below, which is itself halved at
the bottom of a binade. -/
def lowEnd (b : Binary) : ℚ :=
  ((if b.lowerGapHalved then 4 * b.significand - 1 else 4 * b.significand - 2 : ℕ) : ℚ) * b.quarter

/-- The upper end of the rounding interval of `b`: half the gap above. -/
def highEnd (b : Binary) : ℚ := ((4 * b.significand + 2 : ℕ) : ℚ) * b.quarter

/-- The reals that read back as the double `b`: those between the two ends of its rounding
interval, the ends included when the significand is even (ties go to the even significand). -/
def Rounds (b : Binary) (v : ℚ) : Prop :=
  (b.lowEnd < v ∨ (b.significand % 2 = 0 ∧ b.lowEnd = v)) ∧
    (v < b.highEnd ∨ (b.significand % 2 = 0 ∧ v = b.highEnd))

theorem value_eq_quarter (b : Binary) :
    (b.significand : ℚ) * 2 ^ b.exponent = 4 * b.significand * b.quarter := by
  rw [quarter, zpow_sub₀ (by norm_num)]
  ring

theorem lowEnd_lt_value {b : Binary} (hm : 0 < b.significand) :
    b.lowEnd < b.significand * 2 ^ b.exponent := by
  have hq : 0 < b.quarter := by unfold quarter; positivity
  rw [value_eq_quarter, lowEnd]
  refine mul_lt_mul_of_pos_right ?_ hq
  have : (if b.lowerGapHalved then 4 * b.significand - 1 else 4 * b.significand - 2) <
      4 * b.significand := by split <;> omega
  exact_mod_cast this

theorem value_lt_highEnd (b : Binary) : (b.significand : ℚ) * 2 ^ b.exponent < b.highEnd := by
  have hq : 0 < b.quarter := by unfold quarter; positivity
  rw [value_eq_quarter, highEnd]
  refine mul_lt_mul_of_pos_right ?_ hq
  push_cast
  linarith

theorem lowEnd_pos {b : Binary} (hm : 0 < b.significand) : 0 < b.lowEnd := by
  have hq : 0 < b.quarter := by unfold quarter; positivity
  have : 0 < (if b.lowerGapHalved then 4 * b.significand - 1 else 4 * b.significand - 2) := by
    split <;> omega
  unfold lowEnd
  exact mul_pos (by exact_mod_cast this) hq

/-- The interval's width: a whole gap, or three quarters of one at the bottom of a binade. -/
theorem highEnd_sub_lowEnd {b : Binary} (hm : 0 < b.significand) :
    b.highEnd - b.lowEnd = (if b.lowerGapHalved then 3 else 4) * b.quarter := by
  unfold highEnd lowEnd
  split
  · rw [Nat.cast_sub (by omega)]
    push_cast
    ring
  · rw [Nat.cast_sub (by omega)]
    push_cast
    ring

theorem Rounds.pos {b : Binary} (hm : 0 < b.significand) {v : ℚ} (h : b.Rounds v) : 0 < v := by
  obtain ⟨h1 | ⟨-, h1⟩, -⟩ := h
  · exact (lowEnd_pos hm).trans h1
  · exact h1 ▸ lowEnd_pos hm

/-- Away from the bottom of a binade, the reals that read back as `m * 2^e` are those that round
to `m` at that exponent. -/
theorem rounds_iff_roundsTo {b : Binary} (hb : b.lowerGapHalved = false) (hm : 0 < b.significand)
    {v : ℚ} : b.Rounds v ↔ RoundsTo b.significand (v / 2 ^ b.exponent) := by
  have h2 : (0 : ℚ) < 2 ^ b.exponent := by positivity
  have hunit : (2 : ℚ) ^ (b.exponent - 2) = 2 ^ b.exponent / 4 := by
    rw [zpow_sub₀ (by norm_num)]
    norm_num
  have hlo : ((4 * b.significand - 2 : ℕ) : ℚ) = 4 * b.significand - 2 := by
    rw [Nat.cast_sub (by omega)]
    push_cast
    ring
  simp only [Rounds, lowEnd, highEnd, quarter, RoundsTo, hb, Bool.false_eq_true, if_false, hlo,
    hunit]
  rw [lt_div_iff₀ h2, div_lt_iff₀ h2, eq_div_iff h2.ne', div_eq_iff h2.ne']
  push_cast
  have hl : (4 * (b.significand : ℚ) - 2) * (2 ^ b.exponent / 4) = (b.significand - 1 / 2) * 2 ^ b.exponent := by
    ring
  have hh : (4 * (b.significand : ℚ) + 2) * (2 ^ b.exponent / 4) = (b.significand + 1 / 2) * 2 ^ b.exponent := by
    ring
  rw [hl, hh]

theorem lowerGapHalved_iff (b : Binary) :
    b.lowerGapHalved = true ↔ b.significand = 2 ^ 52 ∧ -1074 < b.exponent := by
  simp [lowerGapHalved, Nat.pow_eq]

/-- Every value that reads back as a finite double without sign is read as that double by
`nearest`. -/
theorem nearest_eq_of_rounds {x : Float} (hx : FiniteNonneg x) (hm : (split x).significand ≠ 0)
    {num den : ℕ} (hden : 0 < den) (h : (split x).Rounds ((num : ℚ) / den)) :
    nearest false num den = x := by
  have hF : fieldOf x < 2 ^ 11 := Nat.mod_lt _ (by norm_num)
  have hF' : fieldOf x ≠ 2047 := hx.finite
  have hM : fracOf x < 2 ^ 52 := Nat.mod_lt _ (by norm_num)
  have hxb := hx.bits
  rw [hx.split_eq] at hm h
  by_cases h0 : fieldOf x = 0
  · -- a subnormal double: significand below `2^52` at the least exponent
    simp only [h0, if_true] at hm h
    have hb : lowerGapHalved ⟨false, fracOf x, -1074⟩ = false := by
      rw [Bool.eq_false_iff]
      exact fun hh => absurd ((lowerGapHalved_iff _).1 hh).2 (by norm_num)
    rw [rounds_iff_roundsTo hb (Nat.pos_of_ne_zero hm)] at h
    rw [nearest_of_roundsTo hden (Nat.pos_of_ne_zero hm) (by omega) le_rfl (by norm_num)
      (fun hh => absurd hh (by norm_num)) h, if_pos hM]
    exact pack_eq_of_toBits (by norm_num) hM (by omega) (by rw [hxb, h0])
  · simp only [h0, if_false] at hm h
    have he : (-1074 : ℤ) ≤ (fieldOf x : ℤ) - 1075 := by omega
    have he' : (fieldOf x : ℤ) - 1075 ≤ 971 := by omega
    have hfield : ((fieldOf x : ℤ) - 1075 + 1075).toNat = fieldOf x := by omega
    by_cases hbot : fracOf x = 0 ∧ 1 < fieldOf x
    · -- the bottom of a binade above the least one: the gap below is halved
      have hb : lowerGapHalved ⟨false, fracOf x + 2 ^ 52, (fieldOf x : ℤ) - 1075⟩ = true :=
        (lowerGapHalved_iff _).2 ⟨by simp [hbot.1], by simp only; omega⟩
      simp only [Rounds, lowEnd, highEnd, quarter, hb, if_true] at h
      simp only [hbot.1, zero_add] at h
      have hunit : (2 : ℚ) ^ ((fieldOf x : ℤ) - 1075 - 2) = 2 ^ ((fieldOf x : ℤ) - 1075) / 4 := by
        rw [zpow_sub₀ (by norm_num)]
        norm_num
      have hlo : (((4 * 2 ^ 52 - 1 : ℕ) : ℚ)) * (2 ^ ((fieldOf x : ℤ) - 1075) / 4) =
          (2 ^ 52 - 1 / 4) * 2 ^ ((fieldOf x : ℤ) - 1075) := by
        push_cast
        ring
      have hhi : (((4 * 2 ^ 52 + 2 : ℕ) : ℚ)) * (2 ^ ((fieldOf x : ℤ) - 1075) / 4) =
          (2 ^ 52 + 1 / 2) * 2 ^ ((fieldOf x : ℤ) - 1075) := by
        push_cast
        ring
      rw [hunit, hlo, hhi] at h
      obtain ⟨h1, h2⟩ := h
      rw [nearest_of_bottom hden (by omega) he' (by rcases h1 with h1 | ⟨-, h1⟩ <;> linarith)
        (by rcases h2 with h2 | ⟨-, h2⟩ <;> linarith), hfield]
      exact pack_eq_of_toBits hF (by norm_num) (by omega) (by rw [hxb, hbot.1])
    · have hb : lowerGapHalved ⟨false, fracOf x + 2 ^ 52, (fieldOf x : ℤ) - 1075⟩ = false := by
        rw [Bool.eq_false_iff]
        intro hh
        obtain ⟨h1, h2⟩ := (lowerGapHalved_iff _).1 hh
        simp only at h1 h2
        exact hbot ⟨by omega, by omega⟩
      rw [rounds_iff_roundsTo hb (by simp)] at h
      rw [nearest_of_roundsTo hden (by positivity) (by simp only; omega) he he'
        (fun hgt => by simp only at hgt ⊢; have : fracOf x ≠ 0 := fun h => hbot ⟨h, by omega⟩
                       omega) h]
      rw [if_neg (show ¬(fracOf x + 2 ^ 52 < 2 ^ 52) by omega), hfield, Nat.add_sub_cancel]
      exact pack_eq_of_toBits hF hM (by omega) hxb

theorem FiniteNonneg.split_bounds {x : Float} (hx : FiniteNonneg x) :
    (split x).significand < 2 ^ 53 ∧ -1074 ≤ (split x).exponent ∧ (split x).exponent ≤ 971 := by
  have hF : fieldOf x < 2 ^ 11 := Nat.mod_lt _ (by norm_num)
  have hF' : fieldOf x ≠ 2047 := hx.finite
  have hM : fracOf x < 2 ^ 52 := Nat.mod_lt _ (by norm_num)
  rw [hx.split_eq]
  split <;> simp only <;> omega

/-- A rational below `2^1023` rounds to a finite double: the carry out of the top binade still
lands below infinity. -/
theorem finiteNonneg_nearest {num den : ℕ} (hden : 0 < den) (hv : (num : ℚ) / den < 2 ^ (1023 : ℤ)) :
    FiniteNonneg (nearest false num den) := by
  rcases Nat.eq_zero_or_pos num with h0 | hnum
  · rw [nearest, if_pos h0]
    exact finiteNonneg_pack_of_lt (by norm_num) (by norm_num)
  obtain ⟨hb1, hb2⟩ := floorLog2_spec hnum hden
  have hb : floorLog2 num den < 1023 :=
    (zpow_lt_zpow_iff_right₀ (by norm_num : (1 : ℚ) < 2)).1 (lt_of_le_of_lt hb1 hv)
  set q := max (floorLog2 num den - 52) (-1074) with hq
  have hn : RoundsTo _ ((num : ℚ) / den / 2 ^ q) := roundsTo_roundScaled q hden
  generalize (if q ≥ 0 then roundHalfEven num (den * 2 ^ q.toNat)
    else roundHalfEven (num * 2 ^ (-q).toNat) den) = n at hn
  have ht : (num : ℚ) / den / 2 ^ q < 2 ^ 53 := by
    rw [div_lt_iff₀ (by positivity), ← zpow_natCast, ← zpow_add₀ (by norm_num)]
    calc (num : ℚ) / den < 2 ^ (floorLog2 num den + 1) := hb2
      _ ≤ 2 ^ (((53 : ℕ) : ℤ) + q) := zpow_le_zpow_right₀ (by norm_num) (by omega)
  have hn53 : n ≤ 2 ^ 53 := by
    have : (n : ℚ) < 2 ^ 53 + 1 := by linarith [hn.bounds.1]
    exact_mod_cast Nat.lt_succ_iff.1 (by exact_mod_cast this)
  rw [nearest_of_round hnum hden hq.symm hn]
  simp only
  split_ifs with h1 h2 h3 h4 h5
  · omega
  · omega
  · exact finiteNonneg_pack_of_lt (by omega) (by norm_num)
  · omega
  · exact finiteNonneg_pack_of_lt (by norm_num) h5
  · exact finiteNonneg_pack_of_lt (by omega) (by omega)

end Binary

end ClipSearch.Decimal
