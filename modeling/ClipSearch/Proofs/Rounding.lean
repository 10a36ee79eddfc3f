import Mathlib
import ClipSearch.Proofs.Quotient
/-!
# Rounding in the model of doubles

Every arithmetic operation of the model of doubles ends in `roundWithAccuracy`: an exact
significand and exponent, with what the dropped bits were worth (`Accuracy`). Every shift keeps
what the accuracy claims about the exact position (`Near.shiftRightOne`, `Near.shiftRight`), so
the significand kept is the exact value rounded half to even at its binade's exponent
(`roundWithAccuracy_eq`, `RoundedOf`). Stored doubles pack and unpack to themselves
(`unpack_pack`); products, sums and quotients of positive doubles are their exact results
rounded (`mul_finite`, `add_finite`, `div_finite`); and the nearest double to a decimal is such
a rounding too (`nearest_roundedOf`). A rounding stays on its side of a power of two unless it is
within half a unit of it (`RoundedOf.value_le_two_zpow`, `RoundedOf.two_zpow_lt_value`), whole
numbers below `2^53` are kept exactly (`RoundedOf.value_eq_nat`), and stored doubles compare as
their values do (`lt_iff_value_lt`).
-/
namespace ClipSearch.Decimal.Binary

open Float.Model Float.Model.UnpackedFloat

/-- What an accuracy says of an exact position `t`, counted in units of the last place, beside
the whole units `m` kept: `t` is `m`, or lies strictly between `m` and `m + 1`, below, at or above
the midpoint. -/
def Near (m : ℕ) (t : ℚ) : Accuracy → Prop
  | .exact => t = m
  | .inexact .lt => (m : ℚ) < t ∧ t < m + 1 / 2
  | .inexact .eq => t = m + 1 / 2
  | .inexact .gt => (m : ℚ) + 1 / 2 < t ∧ t < m + 1

@[simp] theorem accuracy_ofMantissaAndAccuracy (m : ℕ) (acc : Accuracy) :
    (ExtendedMantissa.ofMantissaAndAccuracy m acc).accuracy = acc := by
  rcases acc with _ | _ | _ | _ <;> rfl

/-- One shift to the right halves the position: the bit shifted out and what the old residual
bits said make the new residual bits. -/
theorem Near.shiftRightOne {em : ExtendedMantissa} {t : ℚ} (h : Near em.mantissa t em.accuracy) :
    Near em.shiftRightOne.mantissa (t / 2) em.shiftRightOne.accuracy := by
  obtain ⟨m, r, s⟩ := em
  -- the bit shifted out becomes the round bit, the old residual bits fold into the sticky bit
  obtain ⟨k, rfl | rfl⟩ := Nat.even_or_odd' m <;> cases r <;> cases s <;>
    simp [ExtendedMantissa.shiftRightOne, ExtendedMantissa.accuracy, Near, Nat.mul_add_div] at h ⊢ <;>
    grind

/-- Shifting by `k` divides the position by `2^k`, whatever the shifts drop. -/
theorem Near.shiftRight {em : ExtendedMantissa} {t : ℚ} (h : Near em.mantissa t em.accuracy)
    (k : ℕ) : Near (em >>> k).mantissa (t / 2 ^ k) (em >>> k).accuracy := by
  induction k with
  | zero => simpa [HShiftRight.hShiftRight, Nat.repeat] using h
  | succ k ih =>
    have hstep := ih.shiftRightOne
    rw [div_div, ← pow_succ] at hstep
    exact hstep

/-- The rounded significand is the position rounded half to even. -/
theorem Near.roundsTo {m : ℕ} {t : ℚ} {acc : Accuracy} (h : Near m t acc) :
    RoundsTo (acc.roundToNearestEven m) t := by
  rcases acc with _ | ⟨_ | _ | _⟩ <;> simp only [Near] at h <;>
    simp only [Accuracy.roundToNearestEven, RoundsTo]
  · subst h
    constructor <;> left <;> linarith
  · constructor <;> left <;> linarith
  · -- a tie: the even neighbour is kept
    rcases Nat.mod_two_eq_zero_or_one m with hm | hm
    · rw [hm, Nat.add_zero]
      exact ⟨.inl (by linarith), .inr ⟨hm, h⟩⟩
    · rw [hm]
      refine ⟨.inr ⟨by omega, by push_cast; linarith⟩, .inl (by push_cast; linarith)⟩
  · push_cast
    constructor <;> left <;> linarith

/-! ## Rounding at the binade's exponent -/

/-- `E` is the exponent at which the format keeps `v`: below `2^53` units of `2^E`, and at least
`2^52` of them unless `E` is the least exponent. -/
def StoredAt (v : ℚ) (E : ℤ) : Prop :=
  -1074 ≤ E ∧ v < 2 ^ (E + 53) ∧ (-1074 < E → 2 ^ (E + 52) ≤ v)

/-- The double of `n` units of `2^E`; a carry to `2^53` units moves it up one binade. -/
def ofRounded (n : ℕ) (E : ℤ) : UnpackedFloat :=
  if h : n = 0 then .zero .positive
  else if n = 2 ^ 53 then .finite .positive (2 ^ 52) (E + 1) (by norm_num)
  else .finite .positive n E (Nat.pos_of_ne_zero h)

theorem targetExponent_eq (m : ℕ) (e : ℤ) :
    Format.binary64.targetExponent (totalExponent m e) = max ((m.log2 : ℤ) + 1 + e - 53) (-1074) :=
  rfl

/-- A value between `m` and `m + 1` units of `2^e` is kept at the exponent of the binade of `m`. -/
theorem storedAt_target {m : ℕ} {e : ℤ} {v : ℚ} (hm : 0 < m) (hlo : (m : ℚ) * 2 ^ e ≤ v)
    (hhi : v < (m + 1) * 2 ^ e) : StoredAt v (Format.binary64.targetExponent (totalExponent m e)) := by
  rw [targetExponent_eq]
  have hlog : (m : ℚ) + 1 ≤ 2 ^ (m.log2 + 1) := by exact_mod_cast Nat.lt_log2_self
  have hlog' : (2 : ℚ) ^ m.log2 ≤ m := by exact_mod_cast Nat.log2_self_le hm.ne'
  refine ⟨le_max_right _ _, ?_, fun hgt => ?_⟩
  · calc v < (m + 1) * 2 ^ e := hhi
      _ ≤ 2 ^ (m.log2 + 1) * 2 ^ e := by gcongr
      _ = 2 ^ ((m.log2 : ℤ) + 1 + e) := by rw [← zpow_natCast, ← zpow_add₀ two_ne_zero]; push_cast; ring_nf
      _ ≤ 2 ^ (max ((m.log2 : ℤ) + 1 + e - 53) (-1074) + 53) :=
        zpow_le_zpow_right₀ (by norm_num) (by omega)
  · have hE : max ((m.log2 : ℤ) + 1 + e - 53) (-1074) = (m.log2 : ℤ) + 1 + e - 53 := by omega
    rw [hE]
    calc (2 : ℚ) ^ ((m.log2 : ℤ) + 1 + e - 53 + 52) = 2 ^ m.log2 * 2 ^ e := by
          rw [← zpow_natCast, ← zpow_add₀ two_ne_zero]; ring_nf
      _ ≤ m * 2 ^ e := by gcongr
      _ ≤ v := hlo

/-- Where an accuracy puts the exact value: from `m` up to `m + 1` units of `2^e`. -/
theorem Near.bounds {m : ℕ} {t : ℚ} {acc : Accuracy} (h : Near m t acc) : (m : ℚ) ≤ t ∧ t < m + 1 := by
  rcases acc with _ | ⟨_ | _ | _⟩ <;> simp only [Near] at h
  · subst h; constructor <;> linarith
  · constructor <;> linarith
  · subst h; constructor <;> linarith
  · constructor <;> linarith

/-- The second shift of `roundWithAccuracy`: a significand that carried to `2^53` moves up one
binade, a smaller one stays where it is. -/
theorem shiftToTargetExponent_rounded {n : ℕ} {E : ℤ} (hn : n ≤ 2 ^ 53) (hE : -1074 ≤ E) :
    shiftToTargetExponent Format.binary64 n E .exact =
      (ExtendedMantissa.ofMantissaAndAccuracy n .exact >>> (if n = 2 ^ 53 then 1 else 0),
        E + ((if n = 2 ^ 53 then 1 else 0 : ℕ) : ℤ)) := by
  have hshift : (Format.binary64.targetExponent (totalExponent n E) - E).toNat =
      if n = 2 ^ 53 then 1 else 0 := by
    rw [targetExponent_eq]
    split
    · next h53 =>
      rw [h53, Nat.log2_two_pow]
      omega
    · next h53 =>
      have hlog : n.log2 < 53 := by
        rcases Nat.eq_zero_or_pos n with h0 | hpos
        · simp [h0]
        · exact (Nat.log2_lt hpos.ne').2 (by omega)
      omega
  unfold shiftToTargetExponent shiftToExponent
  dsimp only
  rw [hshift]

theorem roundWithAccuracy_eq {m : ℕ} {e : ℤ} {acc : Accuracy} {v : ℚ} (hm : 0 < m)
    (he : e ≤ Format.binary64.targetExponent (totalExponent m e)) (h : Near m (v / 2 ^ e) acc) :
    ∃ E n, StoredAt v E ∧ RoundsTo n (v / 2 ^ E) ∧
      roundWithAccuracy Format.binary64 .positive m e acc = ofRounded n E := by
  have h2e : (0 : ℚ) < 2 ^ e := by positivity
  obtain ⟨hlo, hhi⟩ := h.bounds
  rw [le_div_iff₀ h2e] at hlo
  rw [div_lt_iff₀ h2e] at hhi
  have hstored := storedAt_target hm hlo hhi
  set E := Format.binary64.targetExponent (totalExponent m e) with hE
  set k := (E - e).toNat with hk
  have hkE : e + k = E := by omega
  have hnear := (show Near (ExtendedMantissa.ofMantissaAndAccuracy m acc).mantissa (v / 2 ^ e)
    (ExtendedMantissa.ofMantissaAndAccuracy m acc).accuracy by
      rwa [mantissa_ofMantissaAndAccuracy, accuracy_ofMantissaAndAccuracy]).shiftRight k
  rw [div_div, ← zpow_natCast, ← zpow_add₀ two_ne_zero, hkE] at hnear
  set n := (ExtendedMantissa.ofMantissaAndAccuracy m acc >>> k).roundedMantissa with hn
  have hround : RoundsTo n (v / 2 ^ E) := hnear.roundsTo
  have hn53 : n ≤ 2 ^ 53 := by
    have ht : v / 2 ^ E < 2 ^ 53 := by
      rw [div_lt_iff₀ (by positivity), ← zpow_natCast, ← zpow_add₀ two_ne_zero]
      simpa [add_comm] using hstored.2.1
    have : (n : ℚ) < 2 ^ 53 + 1 := by linarith [hround.bounds.1]
    exact_mod_cast Nat.lt_succ_iff.1 (by exact_mod_cast this)
  refine ⟨E, n, hstored, hround, ?_⟩
  have hfirst : shiftToTargetExponent Format.binary64 m e acc =
      (ExtendedMantissa.ofMantissaAndAccuracy m acc >>> k, E) := by
    rw [← hkE]
    rfl
  unfold roundWithAccuracy
  rw [hfirst]
  simp only
  rw [← hn, shiftToTargetExponent_rounded hn53 hstored.1]
  simp only [mantissa_shiftRight, mantissa_ofMantissaAndAccuracy]
  unfold ofRounded
  by_cases h53 : n = 2 ^ 53
  · simp [h53]
  · simp only [h53, if_false, pow_zero, Nat.div_one, Nat.cast_zero, add_zero]

/-! ## Stored doubles -/

/-- A positive unpacked double as the format keeps it: zero, or a significand below `2^53` at an
exponent within the range, with at least `2^52` units unless at the least exponent. -/
def Stored : UnpackedFloat → Prop
  | .zero s => s = .positive
  | .finite s m e _ => s = .positive ∧ m < 2 ^ 53 ∧ -1074 ≤ e ∧ e ≤ 971 ∧ (-1074 < e → 2 ^ 52 ≤ m)
  | _ => False

def value : UnpackedFloat → ℚ
  | .finite _ m e _ => m * 2 ^ e
  | _ => 0

/-- A stored positive double packs to its biased exponent and the low 52 bits of its
significand; with fewer than 53 bits, at the least exponent, the exponent field is zero. -/
theorem pack_finite {m : ℕ} {e : ℤ} {hm : 0 < m} (h : Stored (.finite .positive m e hm)) :
    UnpackedFloat.pack Format.binary64 (.finite .positive m e hm) =
      packComponents Format.binary64 .positive
        (if 2 ^ 52 ≤ m then BitVec.ofNat 11 (e + 1075).toNat else 0#11) (BitVec.ofNat 52 m) := by
  obtain ⟨-, h53, hlo, hhi, hnorm⟩ := h
  have hbiased : (e + Format.binary64.exponentBias + Format.binary64.mantissaBitsWithoutImplicit).toNat =
      (e + 1075).toNat := by
    change (e + (1023 : ℕ) + (52 : ℕ)).toNat = (e + 1075).toNat
    omega
  have hfit : ¬(2 ^ Format.binary64.exponentBits ≤ (e + 1075).toNat + 1) := by
    change ¬(2 ^ 11 ≤ (e + 1075).toNat + 1)
    omega
  have hbits : m.log2 + 1 = Format.binary64.mantissaBits ↔ 2 ^ 52 ≤ m := by
    change m.log2 + 1 = 53 ↔ _
    rw [← Nat.le_log2 hm.ne']
    have := (Nat.log2_lt hm.ne').2 h53
    omega
  unfold UnpackedFloat.pack
  simp only [hbiased, if_neg hfit, hbits]
  split <;> rfl

theorem unpackSign_packComponents_positive (E : BitVec 11) (M : BitVec 52) :
    @unpackSign Format.binary64 (packComponents Format.binary64 .positive E M) = 0#1 := by
  rw [← BitVec.toNat_inj, toNat_unpackSign, toNat_packComponents_positive]
  have hE := E.isLt
  have hM := M.isLt
  simp only [BitVec.toNat_ofNat]
  omega

/-- A stored double packs and unpacks to itself. -/
theorem unpack_pack {u : UnpackedFloat} (h : Stored u) : (Float.Model.pack u).unpack = u := by
  have hunfold : (Float.Model.pack u).unpack =
      UnpackedFloat.unpack Format.binary64 (UnpackedFloat.pack Format.binary64 u) := rfl
  rw [hunfold]
  cases u with
  | zero s =>
    obtain rfl : s = .positive := h
    rfl
  | finite s m e hm =>
    obtain rfl : s = .positive := h.1
    obtain ⟨-, h53, hlo, hhi, hnorm⟩ := h
    have hbias : (Format.binary64.exponentBias : ℤ) = 1023 := rfl
    have hpos : Sign.ofBitVec 0#1 = Sign.positive := rfl
    have hM : (BitVec.ofNat 52 m).toNat = m % 2 ^ 52 := by simp
    rw [pack_finite ⟨rfl, h53, hlo, hhi, hnorm⟩]
    unfold UnpackedFloat.unpack
    by_cases h52 : 2 ^ 52 ≤ m
    · -- a normal double: the exponent field holds the biased exponent, the leading bit is implicit
      have hE : (BitVec.ofNat 11 (e + 1075).toNat).toNat = (e + 1075).toNat := by simp; omega
      have hne1 : BitVec.ofNat 11 (e + 1075).toNat ≠ -1#11 := by
        intro heq
        have := congrArg BitVec.toNat heq
        rw [hE] at this
        simp only [BitVec.toNat_neg, BitVec.toNat_ofNat] at this
        omega
      have hne0 : BitVec.ofNat 11 (e + 1075).toNat ≠ 0#11 := by
        intro heq
        have := congrArg BitVec.toNat heq
        rw [hE] at this
        simp only [BitVec.toNat_ofNat] at this
        omega
      have hlead : (1#1 ++ BitVec.ofNat 52 m).toNat = m := by
        rw [BitVec.toNat_append, hM, ← Nat.shiftLeft_add_eq_or_of_lt (Nat.mod_lt _ (by norm_num)),
          Nat.shiftLeft_eq]
        simp only [BitVec.toNat_ofNat]
        omega
      have hexp : ((BitVec.ofNat 11 (e + 1075).toNat).toNat : ℤ) -
          (Format.binary64.exponentBias + (Format.binary64.mantissaBitsWithoutImplicit : ℤ)) = e := by
        rw [hE, hbias]
        change (e + 1075).toNat - (1023 + 52 : ℤ) = e
        omega
      simp only [if_pos h52, unpackMantissa_packComponents, unpackExponent_packComponents,
        unpackSign_packComponents_positive, hpos, hne1, hne0, if_false, hlead, hexp]
    · -- a subnormal: fewer than 53 bits, only at the least exponent
      have he : e = -1074 := by
        by_contra hne
        exact h52 (hnorm (by omega))
      have hmne : BitVec.ofNat 52 m ≠ 0#52 := by
        intro heq
        have := congrArg BitVec.toNat heq
        rw [hM] at this
        simp only [BitVec.toNat_ofNat] at this
        omega
      have hall : (0#11 = -1#11) = False := by decide
      have hsm : (BitVec.ofNat 52 m).toNat = m := by rw [hM]; omega
      have hse : ((0#11).toNat : ℤ) - (Format.binary64.exponentBias + ((52 : ℕ) : ℤ)) + 1 = e := by
        rw [hbias, he]
        rfl
      simp only [if_neg h52, unpackMantissa_packComponents, unpackExponent_packComponents,
        unpackSign_packComponents_positive, hpos, hmne, dif_neg, not_false_eq_true, hall, if_false,
        if_true, hsm, hse]
  | infinity s => exact h.elim
  | notANumber => exact h.elim

/-! ## Correctly rounded results -/

/-- `u` is `v` rounded half to even at the exponent the format keeps `v` at. -/
def RoundedOf (u : UnpackedFloat) (v : ℚ) : Prop :=
  ∃ E n, StoredAt v E ∧ RoundsTo n (v / 2 ^ E) ∧ u = ofRounded n E

theorem StoredAt.unique {v : ℚ} {E E' : ℤ} (h : StoredAt v E) (h' : StoredAt v E') : E = E' := by
  by_contra hne
  -- the value would lie below the larger binade's bottom and at or above it
  have key : ∀ {A B : ℤ}, StoredAt v A → StoredAt v B → A < B → False := fun {A B} hA hB hlt => by
    have hlo := hB.2.2 (by linarith [hA.1])
    have : (2 : ℚ) ^ (A + 53) ≤ 2 ^ (B + 52) :=
      zpow_le_zpow_right₀ (by norm_num : (1 : ℚ) ≤ 2) (by omega : A + 53 ≤ B + 52)
    linarith [hA.2.1]
  rcases lt_or_gt_of_ne hne with hlt | hlt
  · exact key h h' hlt
  · exact key h' h hlt

theorem value_ofRounded (n : ℕ) (E : ℤ) : value (ofRounded n E) = n * 2 ^ E := by
  unfold ofRounded
  split
  · next h0 => simp [value, h0]
  · split
    · next _ h53 =>
      simp only [value, h53, zpow_add₀ (two_ne_zero' ℚ), zpow_one]
      push_cast
      ring
    · rfl

/-- A rounded value is stored, unless it carries past the top of the range. -/
theorem stored_ofRounded {v : ℚ} {E : ℤ} {n : ℕ} (hv : StoredAt v E) (hn : RoundsTo n (v / 2 ^ E))
    (hE : E ≤ 970) : Stored (ofRounded n E) := by
  have h2 : (0 : ℚ) < 2 ^ E := by positivity
  have ht : v / 2 ^ E < 2 ^ 53 := by
    rw [div_lt_iff₀ h2, ← zpow_natCast, ← zpow_add₀ two_ne_zero]
    simpa [add_comm] using hv.2.1
  have hn53 : n ≤ 2 ^ 53 := by
    have : (n : ℚ) < 2 ^ 53 + 1 := by linarith [hn.bounds.1]
    exact_mod_cast Nat.lt_succ_iff.1 (by exact_mod_cast this)
  have hnorm : -1074 < E → 2 ^ 52 ≤ n := fun hgt => by
    have ht' : (2 : ℚ) ^ 52 ≤ v / 2 ^ E := by
      rw [le_div_iff₀ h2, ← zpow_natCast, ← zpow_add₀ two_ne_zero]
      simpa [add_comm] using hv.2.2 hgt
    have : (2 : ℚ) ^ 52 - 1 / 2 < n + 1 / 2 := by linarith [hn.bounds.2]
    have : (2 : ℚ) ^ 52 < n + 1 := by linarith
    exact Nat.lt_succ_iff.1 (by exact_mod_cast this)
  unfold ofRounded
  split
  · rfl
  · split
    · exact ⟨rfl, by norm_num, by linarith [hv.1], by omega, fun _ => le_refl _⟩
    · next _ h53 => exact ⟨rfl, by omega, hv.1, by omega, hnorm⟩

theorem roundedOf_value {u : UnpackedFloat} (h : Stored u) : RoundedOf u (value u) := by
  cases u with
  | zero s =>
    obtain rfl : s = .positive := h
    exact ⟨-1074, 0, ⟨le_refl _, by simp [value], fun h => absurd h (lt_irrefl _)⟩,
      by simp [value, RoundsTo], rfl⟩
  | finite s m e hm =>
    obtain ⟨rfl, h53, hlo, hhi, hnorm⟩ := h
    have h2 : (0 : ℚ) < 2 ^ e := by positivity
    refine ⟨e, m, ⟨hlo, ?_, fun hgt => ?_⟩, ?_, ?_⟩
    · rw [value, add_comm, zpow_add₀ two_ne_zero, zpow_ofNat]
      gcongr
      exact_mod_cast h53
    · rw [value, add_comm, zpow_add₀ two_ne_zero, zpow_ofNat]
      gcongr
      exact_mod_cast hnorm hgt
    · rw [value, mul_div_cancel_right₀ _ h2.ne']
      constructor <;> left <;> linarith
    · unfold ofRounded
      rw [dif_neg hm.ne', if_neg (by omega)]
  | infinity s => exact h.elim
  | notANumber => exact h.elim

/-! ## The operations -/

theorem log2_mul_pow (m k : ℕ) (hm : 0 < m) : (m * 2 ^ k).log2 = m.log2 + k := by
  rw [Nat.log2_eq_iff (by positivity)]
  constructor
  · rw [pow_add]
    exact Nat.mul_le_mul_right _ (Nat.log2_self_le hm.ne')
  · rw [show m.log2 + k + 1 = m.log2 + 1 + k by omega, pow_add]
    exact Nat.mul_lt_mul_of_pos_right Nat.lt_log2_self (by positivity)

/-- An exact significand at or below its binade's exponent rounds correctly. -/
theorem roundWithAccuracy_exact {m : ℕ} {e : ℤ} (hm : 0 < m)
    (he : e ≤ Format.binary64.targetExponent (totalExponent m e)) :
    RoundedOf (roundWithAccuracy Format.binary64 .positive m e .exact) (m * 2 ^ e) := by
  obtain ⟨E, n, hv, hn, heq⟩ := roundWithAccuracy_eq hm he
    (show Near m ((m : ℚ) * 2 ^ e / 2 ^ e) .exact from mul_div_cancel_right₀ _ (zpow_ne_zero _ two_ne_zero))
  exact ⟨E, n, hv, hn, heq⟩

/-- The product of two positive doubles of 53 bits is their exact product rounded. -/
theorem mul_finite {m₁ m₂ : ℕ} {e₁ e₂ : ℤ} (h₁ : 0 < m₁) (h₂ : 0 < m₂) (hn₁ : 2 ^ 52 ≤ m₁)
    (hn₂ : 2 ^ 52 ≤ m₂) :
    RoundedOf (UnpackedFloat.mul Format.binary64 (.finite .positive m₁ e₁ h₁) (.finite .positive m₂ e₂ h₂))
      (m₁ * 2 ^ e₁ * (m₂ * 2 ^ e₂)) := by
  have hsign : Sign.positive * Sign.positive = Sign.positive := rfl
  have hv : (m₁ : ℚ) * 2 ^ e₁ * (m₂ * 2 ^ e₂) = ((m₁ * m₂ : ℕ) : ℚ) * 2 ^ (e₁ + e₂) := by
    rw [zpow_add₀ two_ne_zero]
    push_cast
    ring
  -- a product of two 53-bit significands has at least 105 bits, so it is shifted down
  have hlog : 104 ≤ (m₁ * m₂).log2 := by
    rw [Nat.le_log2 (Nat.mul_pos h₁ h₂).ne']
    calc 2 ^ 104 = 2 ^ 52 * 2 ^ 52 := by norm_num
      _ ≤ m₁ * m₂ := Nat.mul_le_mul hn₁ hn₂
  simp only [UnpackedFloat.mul, hsign, hv]
  exact roundWithAccuracy_exact (Nat.mul_pos h₁ h₂) (by rw [targetExponent_eq]; omega)

/-- Rounding a positive significand at any exponent: it is first moved down to its binade's
exponent, then rounded. -/
theorem round_positive {M : ℕ} (e : ℤ) (hM : 0 < M) :
    RoundedOf (UnpackedFloat.round Format.binary64 .positive M e) (M * 2 ^ e) := by
  unfold UnpackedFloat.round decreaseExponent
  set T := Format.binary64.targetExponent (totalExponent M e) with hT
  set s := (e - T).toNat with hs
  have hpow : 0 < 2 ^ s := by positivity
  have hv : (M : ℚ) * 2 ^ e = ((M * 2 ^ s : ℕ) : ℚ) * 2 ^ (e - s) := by
    rw [zpow_sub₀ two_ne_zero, zpow_natCast]
    push_cast
    field_simp
  have hT' : Format.binary64.targetExponent (totalExponent (M * 2 ^ s) (e - s)) = T := by
    rw [targetExponent_eq, hT, targetExponent_eq, log2_mul_pow M s hM]
    push_cast
    ring_nf
  simp only [Nat.shiftLeft_eq]
  rw [hv]
  exact roundWithAccuracy_exact (Nat.mul_pos hM hpow) (by rw [hT']; omega)

/-- The sum of two positive finite doubles is their exact sum rounded. -/
theorem add_finite {m₁ m₂ : ℕ} {e₁ e₂ : ℤ} (h₁ : 0 < m₁) (h₂ : 0 < m₂) :
    RoundedOf (UnpackedFloat.add Format.binary64 (.finite .positive m₁ e₁ h₁) (.finite .positive m₂ e₂ h₂))
      (m₁ * 2 ^ e₁ + m₂ * 2 ^ e₂) := by
  set e := min e₁ e₂ with he
  have hpos : 0 < m₁ * 2 ^ (e₁ - e).toNat + m₂ * 2 ^ (e₂ - e).toNat := by positivity
  have hv : (m₁ : ℚ) * 2 ^ e₁ + m₂ * 2 ^ e₂ =
      ((m₁ * 2 ^ (e₁ - e).toNat + m₂ * 2 ^ (e₂ - e).toNat : ℕ) : ℚ) * 2 ^ e := by
    have h1 : (2 : ℚ) ^ e₁ = 2 ^ (e₁ - e).toNat * 2 ^ e := by
      rw [← zpow_natCast, ← zpow_add₀ two_ne_zero]
      congr 1
      omega
    have h2 : (2 : ℚ) ^ e₂ = 2 ^ (e₂ - e).toNat * 2 ^ e := by
      rw [← zpow_natCast, ← zpow_add₀ two_ne_zero]
      congr 1
      omega
    rw [h1, h2]
    push_cast
    ring
  have hsum : (Sign.positive.apply ((m₁ <<< (e₁ - e).toNat : ℕ) : ℤ) +
      Sign.positive.apply ((m₂ <<< (e₂ - e).toNat : ℕ) : ℤ)) =
      ((m₁ * 2 ^ (e₁ - e).toNat + m₂ * 2 ^ (e₂ - e).toNat : ℕ) : ℤ) := by
    simp [Sign.apply, Nat.shiftLeft_eq]
  simp only [UnpackedFloat.add, decreaseExponent, ← he, hsum]
  unfold UnpackedFloat.normalize
  rw [Int.compare_eq_gt.2 (by exact_mod_cast hpos)]
  simp only [Int.toNat_natCast]
  rw [hv]
  exact round_positive e hpos

/-- The accuracy a division gives: the remainder over the divisor, against one half. -/
theorem near_accuracyOfFraction (q : ℕ) {r d : ℕ} (hd : 0 < d) (hr : r < d) :
    Near q (q + r / d) (accuracyOfFraction r d) := by
  have hd' : (0 : ℚ) < d := by exact_mod_cast hd
  unfold accuracyOfFraction
  split
  · next h0 => simp [Near, h0]
  · next h0 =>
    have hr0 : (0 : ℚ) < r / d := div_pos (by exact_mod_cast Nat.pos_of_ne_zero h0) hd'
    have hr1 : (r : ℚ) / d < 1 := (div_lt_one hd').2 (by exact_mod_cast hr)
    rcases lt_trichotomy (2 * r) d with hlt | heq | hgt
    · rw [Nat.compare_eq_lt.2 hlt]
      have : (r : ℚ) / d < 1 / 2 := by
        rw [div_lt_iff₀ hd']
        have : (2 * r : ℚ) < d := by exact_mod_cast hlt
        linarith
      exact ⟨by linarith, by linarith⟩
    · rw [Nat.compare_eq_eq.2 heq]
      have : (r : ℚ) / d = 1 / 2 := by
        rw [div_eq_iff hd'.ne']
        have : (2 * r : ℚ) = d := by exact_mod_cast heq
        linarith
      show (q : ℚ) + r / d = q + 1 / 2
      rw [this]
    · rw [Nat.compare_eq_gt.2 hgt]
      have : (1 : ℚ) / 2 < r / d := by
        rw [lt_div_iff₀ hd']
        have : (d : ℚ) < 2 * r := by exact_mod_cast hgt
        linarith
      exact ⟨by linarith, by linarith⟩

theorem value_lt_totalExponent {m : ℕ} (e : ℤ) :
    (m : ℚ) * 2 ^ e < 2 ^ totalExponent m e := by
  rw [totalExponent, zpow_add₀ two_ne_zero]
  have : (m : ℚ) < 2 ^ ((m.log2 : ℤ) + 1) := by
    rw [show (m.log2 : ℤ) + 1 = ((m.log2 + 1 : ℕ) : ℤ) by push_cast; ring, zpow_natCast]
    exact_mod_cast Nat.lt_log2_self
  gcongr

theorem totalExponent_le_value {m : ℕ} (hm : 0 < m) (e : ℤ) :
    (2 : ℚ) ^ (totalExponent m e - 1) ≤ m * 2 ^ e := by
  rw [totalExponent, show (m.log2 : ℤ) + 1 + e - 1 = (m.log2 : ℤ) + e by ring,
    zpow_add₀ two_ne_zero, zpow_natCast]
  gcongr
  exact_mod_cast Nat.log2_self_le hm.ne'

/-- The quotient of two positive finite doubles, unless it falls near the bottom of the range, is
their exact quotient rounded. -/
theorem div_finite {m₁ m₂ : ℕ} {e₁ e₂ : ℤ} (h₁ : 0 < m₁) (h₂ : 0 < m₂)
    (hq : (2 : ℚ) ^ (-1020 : ℤ) ≤ m₁ * 2 ^ e₁ / (m₂ * 2 ^ e₂)) :
    RoundedOf (UnpackedFloat.div Format.binary64 (.finite .positive m₁ e₁ h₁) (.finite .positive m₂ e₂ h₂))
      (m₁ * 2 ^ e₁ / (m₂ * 2 ^ e₂)) := by
  have hsign : Sign.positive / Sign.positive = Sign.positive := rfl
  set D := totalExponent m₁ e₁ - totalExponent m₂ e₂ with hD
  have hDlo : -1020 ≤ D := by
    have hy : (0 : ℚ) < m₂ * 2 ^ e₂ := by positivity
    have hlt : (m₁ : ℚ) * 2 ^ e₁ / (m₂ * 2 ^ e₂) < 2 ^ (D + 1) := by
      rw [div_lt_iff₀ hy]
      calc (m₁ : ℚ) * 2 ^ e₁ < 2 ^ totalExponent m₁ e₁ := value_lt_totalExponent e₁
        _ = 2 ^ (D + 1) * 2 ^ (totalExponent m₂ e₂ - 1) := by
          rw [← zpow_add₀ two_ne_zero]; congr 1; omega
        _ ≤ 2 ^ (D + 1) * (m₂ * 2 ^ e₂) := by gcongr; exact totalExponent_le_value h₂ e₂
    have := lt_of_le_of_lt hq hlt
    have := (zpow_lt_zpow_iff_right₀ (by norm_num : (1 : ℚ) < 2)).1 this
    omega
  have htarget : Format.binary64.targetExponent D = D - 53 := by
    change max (D - (53 : ℕ)) (-1074) = D - 53
    omega
  set eT := min (e₁ - e₂) (D - 53) with heT
  set s := (e₁ - e₂ - eT).toNat with hs
  have hm : 0 < m₁ * 2 ^ s := by positivity
  have hbig : 2 ^ 52 * m₂ < m₁ * 2 ^ s := by
    have hs' : m₂.log2 + 53 ≤ m₁.log2 + s := by
      simp only [hD, totalExponent] at heT hs
      omega
    calc 2 ^ 52 * m₂ < 2 ^ 52 * 2 ^ (m₂.log2 + 1) :=
          Nat.mul_lt_mul_of_pos_left Nat.lt_log2_self (by positivity)
      _ = 2 ^ (m₂.log2 + 53) := by rw [← pow_add]; ring_nf
      _ ≤ 2 ^ (m₁.log2 + s) := Nat.pow_le_pow_right (by norm_num) hs'
      _ = 2 ^ m₁.log2 * 2 ^ s := pow_add _ _ _
      _ ≤ m₁ * 2 ^ s := Nat.mul_le_mul_right _ (Nat.log2_self_le h₁.ne')
  have hq52 : 2 ^ 52 ≤ m₁ * 2 ^ s / m₂ := by
    rw [Nat.le_div_iff_mul_le h₂]
    omega
  have hqpos : 0 < m₁ * 2 ^ s / m₂ := lt_of_lt_of_le (by positivity) hq52
  have hqlog : 52 ≤ (m₁ * 2 ^ s / m₂).log2 := (Nat.le_log2 hqpos.ne').2 hq52
  -- the exact quotient at exponent `eT` is the whole quotient and its remainder
  have hpos : (m₁ : ℚ) * 2 ^ e₁ / (m₂ * 2 ^ e₂) / 2 ^ eT =
      ((m₁ * 2 ^ s / m₂ : ℕ) : ℚ) + ((m₁ * 2 ^ s % m₂ : ℕ) : ℚ) / m₂ := by
    have hsplit : ((m₁ * 2 ^ s : ℕ) : ℚ) = ((m₁ * 2 ^ s / m₂ : ℕ) : ℚ) * m₂ + ((m₁ * 2 ^ s % m₂ : ℕ) : ℚ) := by
      exact_mod_cast (Nat.div_add_mod' (m₁ * 2 ^ s) m₂).symm
    have hexp : (2 : ℚ) ^ e₁ / 2 ^ e₂ / 2 ^ eT = 2 ^ s := by
      rw [← zpow_sub₀ two_ne_zero, ← zpow_sub₀ two_ne_zero, ← zpow_natCast]
      congr 1
      omega
    have hm₂ : (m₂ : ℚ) ≠ 0 := by exact_mod_cast h₂.ne'
    calc (m₁ : ℚ) * 2 ^ e₁ / (m₂ * 2 ^ e₂) / 2 ^ eT = m₁ * (2 ^ e₁ / 2 ^ e₂ / 2 ^ eT) / m₂ := by
          field_simp
      _ = ((m₁ * 2 ^ s : ℕ) : ℚ) / m₂ := by rw [hexp]; push_cast; ring
      _ = _ := by rw [hsplit]; field_simp
  have hnear := near_accuracyOfFraction (m₁ * 2 ^ s / m₂) h₂ (Nat.mod_lt (m₁ * 2 ^ s) h₂)
  rw [← hpos] at hnear
  have he : eT ≤ Format.binary64.targetExponent (totalExponent (m₁ * 2 ^ s / m₂) eT) := by
    rw [targetExponent_eq]
    omega
  obtain ⟨E, n, hv, hn, heq⟩ := roundWithAccuracy_eq hqpos he hnear
  refine ⟨E, n, hv, hn, ?_⟩
  simp only [UnpackedFloat.div, divCore, hsign, ← hD, htarget, ← heT, ← hs, Nat.shiftLeft_eq]
  exact heq

/-! ## Bounds of a rounding -/

theorem roundsTo_self (n : ℕ) : RoundsTo n n :=
  ⟨Or.inl (by linarith), Or.inl (by linarith)⟩

theorem RoundsTo.le_of_le {n N : ℕ} {t : ℚ} (h : RoundsTo n t) (ht : t ≤ N) : n ≤ N := by
  by_contra hlt
  have hN : (N : ℚ) + 1 ≤ n := by exact_mod_cast Nat.succ_le_of_lt (Nat.lt_of_not_le hlt)
  linarith [h.bounds.1]

/-- Neighbours never both round from one position: only a tie lies half way, and of two
neighbours only one is even. -/
theorem RoundsTo.not_succ {n : ℕ} {t : ℚ} (h : RoundsTo (n + 1) t) (h' : RoundsTo n t) : False := by
  have hmid : t = n + 1 / 2 := by
    have := h.bounds.1
    have := h'.bounds.2
    push_cast at *
    linarith
  obtain ⟨hlo | ⟨heven, -⟩, -⟩ := h
  · push_cast at hlo
    linarith
  obtain ⟨-, hhi | ⟨heven', -⟩⟩ := h'
  · linarith
  · omega

theorem RoundsTo.unique {n n' : ℕ} {t : ℚ} (h : RoundsTo n t) (h' : RoundsTo n' t) : n = n' := by
  have hle : ∀ {a b : ℕ}, RoundsTo a t → RoundsTo b t → a ≤ b + 1 := fun {a b} ha hb => by
    have := ha.bounds.1
    have := hb.bounds.2
    have : (a : ℚ) ≤ b + 1 := by linarith
    exact_mod_cast this
  rcases lt_trichotomy n n' with hlt | heq | hgt
  · obtain rfl : n' = n + 1 := by have := hle h' h; omega
    exact (RoundsTo.not_succ h' h).elim
  · exact heq
  · obtain rfl : n = n' + 1 := by have := hle h h'; omega
    exact (RoundsTo.not_succ h h').elim

/-- A rounding is fixed by the exponent that keeps the value and the whole number it rounds to
there. -/
theorem RoundedOf.eq_ofRounded {u : UnpackedFloat} {v : ℚ} (h : RoundedOf u v) {E : ℤ} {n : ℕ}
    (hE : StoredAt v E) (hn : RoundsTo n (v / 2 ^ E)) : u = ofRounded n E := by
  obtain ⟨E', n', hE', hn', rfl⟩ := h
  obtain rfl := hE'.unique hE
  rw [RoundsTo.unique hn' hn]

theorem two_zpow_mul_two_zpow (a b : ℤ) : (2 : ℚ) ^ a * 2 ^ b = 2 ^ (a + b) :=
  (zpow_add₀ two_ne_zero a b).symm

theorem cast_two_pow_mul (j : ℕ) (E : ℤ) : ((2 ^ j : ℕ) : ℚ) * 2 ^ E = 2 ^ ((j : ℤ) + E) := by
  push_cast
  rw [← zpow_natCast, two_zpow_mul_two_zpow]

/-- The whole number `2^(k - E)`, for `E ≤ k`, counts units of `2^E` in `2^k`. -/
theorem cast_two_pow_toNat {E k : ℤ} (h : E ≤ k) : ((2 ^ (k - E).toNat : ℕ) : ℚ) * 2 ^ E = 2 ^ k := by
  rw [cast_two_pow_mul, Int.toNat_of_nonneg (by omega)]
  congr 1
  omega

/-- Rounding never carries a value past a power of two it does not exceed. -/
theorem RoundedOf.value_le_two_zpow {u : UnpackedFloat} {v : ℚ} (h : RoundedOf u v) {k : ℤ}
    (hk : -1074 ≤ k) (hv : v ≤ 2 ^ k) : value u ≤ 2 ^ k := by
  obtain ⟨E, n, hE, hn, rfl⟩ := h
  rw [value_ofRounded]
  have hEk : E ≤ k := by
    by_contra hlt
    have hlo := hE.2.2 (by omega)
    have : (2 : ℚ) ^ k < 2 ^ (E + 52) := zpow_lt_zpow_right₀ (by norm_num) (by omega)
    linarith
  have hpos : (0 : ℚ) < 2 ^ E := by positivity
  have hN : v / 2 ^ E ≤ ((2 ^ (k - E).toNat : ℕ) : ℚ) := by
    rw [div_le_iff₀ hpos, cast_two_pow_toNat hEk]
    exact hv
  calc (n : ℚ) * 2 ^ E ≤ ((2 ^ (k - E).toNat : ℕ) : ℚ) * 2 ^ E := by
        gcongr
        exact_mod_cast RoundsTo.le_of_le hn hN
    _ = 2 ^ k := cast_two_pow_toNat hEk

/-- Rounding keeps above a power of two, in the normal range, a value more than half a unit of
the last place above it. -/
theorem RoundedOf.two_zpow_lt_value {u : UnpackedFloat} {v : ℚ} (h : RoundedOf u v) {k : ℤ}
    (hk : -1021 ≤ k) (hv : 2 ^ k + 2 ^ (k - 53) < v) : 2 ^ k < value u := by
  obtain ⟨E, n, hE, hn, rfl⟩ := h
  rw [value_ofRounded]
  have hpos : (0 : ℚ) < 2 ^ E := by positivity
  have hhalf : (0 : ℚ) < 2 ^ (k - 53) := by positivity
  have hkE : k - 52 ≤ E := by
    by_contra hlt
    have : (2 : ℚ) ^ (E + 53) ≤ 2 ^ k := zpow_le_zpow_right₀ (by norm_num) (by omega)
    linarith [hE.2.1]
  have hround := (RoundsTo.bounds hn).2
  rcases hkE.eq_or_lt with hEq | hlt
  · -- the binade of `2^k`: more than half a unit above `2^k` rounds to a unit above it
    subst hEq
    have hscaled : (2 : ℚ) ^ 52 + 1 / 2 < v / 2 ^ (k - 52) := by
      rw [lt_div_iff₀ hpos]
      have e1 : (2 : ℚ) ^ 52 * 2 ^ (k - 52) = 2 ^ k := by
        rw [← zpow_natCast, two_zpow_mul_two_zpow]; congr 1; push_cast; ring
      have e2 : (1 / 2 : ℚ) * 2 ^ (k - 52) = 2 ^ (k - 53) := by
        rw [show (1 / 2 : ℚ) = 2 ^ (-1 : ℤ) by norm_num, two_zpow_mul_two_zpow]; congr 1; ring
      rw [add_mul, e1, e2]
      exact hv
    have hn52 : 2 ^ 52 < n := by
      have : ((2 ^ 52 : ℕ) : ℚ) < n := by push_cast; linarith
      exact_mod_cast this
    calc (2 : ℚ) ^ k = ((2 ^ 52 : ℕ) : ℚ) * 2 ^ (k - 52) := by
          rw [cast_two_pow_mul]
          congr 1
          omega
      _ < n * 2 ^ (k - 52) := by gcongr
  · -- a higher binade: the value is at least its bottom, a power of two above `2^k`
    have hbottom : (2 : ℚ) ^ 52 ≤ v / 2 ^ E := by
      rw [le_div_iff₀ hpos, ← zpow_natCast, two_zpow_mul_two_zpow, add_comm]
      exact_mod_cast hE.2.2 (by omega)
    have hn52 : 2 ^ 52 ≤ n := by
      have : ((2 ^ 52 - 1 : ℕ) : ℚ) < n := by push_cast; linarith
      have := (Nat.cast_lt (α := ℚ)).1 this
      omega
    calc (2 : ℚ) ^ k < 2 ^ (E + 52) := zpow_lt_zpow_right₀ (by norm_num) (by omega)
      _ = ((2 ^ 52 : ℕ) : ℚ) * 2 ^ E := by
          rw [cast_two_pow_mul, add_comm]
          rfl
      _ ≤ n * 2 ^ E := by gcongr

/-- Rounding keeps a value at or above a power of two, in the normal range, at or above it:
the power is a double of its binade. -/
theorem RoundedOf.two_zpow_le_value {u : UnpackedFloat} {v : ℚ} (h : RoundedOf u v) {k : ℤ}
    (hk : -1021 ≤ k) (hv : 2 ^ k ≤ v) : 2 ^ k ≤ value u := by
  obtain ⟨E, n, hE, hn, rfl⟩ := h
  rw [value_ofRounded]
  have hpos : (0 : ℚ) < 2 ^ E := by positivity
  have hkE : k - 52 ≤ E := by
    by_contra hlt
    have : (2 : ℚ) ^ (E + 53) ≤ 2 ^ k := zpow_le_zpow_right₀ (by norm_num) (by omega)
    linarith [hE.2.1]
  have hbottom : (2 : ℚ) ^ 52 ≤ v / 2 ^ E := by
    rw [le_div_iff₀ hpos, ← zpow_natCast, two_zpow_mul_two_zpow, add_comm]
    exact_mod_cast hE.2.2 (by omega)
  have hn52 : 2 ^ 52 ≤ n := by
    have : ((2 ^ 52 - 1 : ℕ) : ℚ) < n := by push_cast; linarith [(RoundsTo.bounds hn).2]
    have := (Nat.cast_lt (α := ℚ)).1 this
    omega
  calc (2 : ℚ) ^ k ≤ 2 ^ (E + 52) := zpow_le_zpow_right₀ (by norm_num) (by omega)
    _ = ((2 ^ 52 : ℕ) : ℚ) * 2 ^ E := by
        rw [cast_two_pow_mul, add_comm]
        rfl
    _ ≤ n * 2 ^ E := by gcongr

/-- A rounding of a value below `2^1023` is stored: it keeps at most 53 bits at an exponent the
format holds. -/
theorem RoundedOf.stored {u : UnpackedFloat} {v : ℚ} (h : RoundedOf u v) (hv : v < 2 ^ (1023 : ℤ)) :
    Stored u := by
  obtain ⟨E, n, hE, hn, rfl⟩ := h
  refine stored_ofRounded hE hn ?_
  by_contra hgt
  have : (2 : ℚ) ^ (1023 : ℤ) ≤ 2 ^ (E + 52) := zpow_le_zpow_right₀ (by norm_num) (by omega)
  linarith [hE.2.2 (by omega)]

theorem RoundedOf.value_eq_nat {u : UnpackedFloat} {N : ℕ} (h : RoundedOf u N) (hN : N < 2 ^ 53) :
    value u = N := by
  obtain ⟨E, n, hE, hn, rfl⟩ := h
  rw [value_ofRounded]
  have hE0 : E ≤ 0 := by
    by_contra hpos
    have : (2 : ℚ) ^ (53 : ℤ) ≤ 2 ^ (E + 52) := zpow_le_zpow_right₀ (by norm_num) (by omega)
    have hlt : (N : ℚ) < 2 ^ (53 : ℤ) := by exact_mod_cast hN
    linarith [hE.2.2 (by omega)]
  have hunits : (N : ℚ) / 2 ^ E = ((N * 2 ^ (-E).toNat : ℕ) : ℚ) := by
    rw [div_eq_iff (by positivity), Nat.cast_mul, mul_assoc, cast_two_pow_mul,
      Int.toNat_of_nonneg (by omega), neg_add_cancel, zpow_zero, mul_one]
  rw [hunits] at hn
  rw [RoundsTo.unique hn (roundsTo_self _), Nat.cast_mul, mul_assoc, cast_two_pow_mul,
    Int.toNat_of_nonneg (by omega), neg_add_cancel, zpow_zero, mul_one]

/-- A rounding is within half a unit of the last place of the exact value, so below `2^K` within
`2^(K - 54)`. -/
theorem RoundedOf.abs_sub_le {u : UnpackedFloat} {v : ℚ} (h : RoundedOf u v) {K : ℤ}
    (hK : -1021 ≤ K) (hv : v < 2 ^ K) : |value u - v| ≤ 2 ^ (K - 54) := by
  obtain ⟨E, n, hE, hn, rfl⟩ := h
  rw [value_ofRounded]
  have hpos : (0 : ℚ) < 2 ^ E := by positivity
  have hEK : E ≤ K - 53 := by
    by_contra hgt
    have : (2 : ℚ) ^ K ≤ 2 ^ (E + 52) := zpow_le_zpow_right₀ (by norm_num) (by omega)
    linarith [hE.2.2 (by omega)]
  obtain ⟨hlo, hhi⟩ := RoundsTo.bounds hn
  have hdiff : |(n : ℚ) - v / 2 ^ E| ≤ 1 / 2 := abs_le.2 ⟨by linarith, by linarith⟩
  calc |(n : ℚ) * 2 ^ E - v| = |(n : ℚ) - v / 2 ^ E| * 2 ^ E := by
        rw [← abs_of_pos hpos, ← abs_mul, abs_of_pos hpos, sub_mul, div_mul_cancel₀ _ hpos.ne']
    _ ≤ 1 / 2 * 2 ^ E := by gcongr
    _ = 2 ^ (E - 1) := by
        rw [show (1 / 2 : ℚ) = 2 ^ (-1 : ℤ) by norm_num, two_zpow_mul_two_zpow]
        congr 1
        ring
    _ ≤ 2 ^ (K - 54) := zpow_le_zpow_right₀ (by norm_num) (by omega)

/-! ## Comparison -/

/-- Two positive doubles in stored form compare by exponent first, then by significand. -/
theorem lt_finite_iff {m₁ m₂ : ℕ} {e₁ e₂ : ℤ} {h₁ : 0 < m₁} {h₂ : 0 < m₂} :
    (UnpackedFloat.finite .positive m₁ e₁ h₁).lt (.finite .positive m₂ e₂ h₂) = true ↔
      e₁ < e₂ ∨ (e₁ = e₂ ∧ m₁ < m₂) := by
  simp only [UnpackedFloat.lt, UnpackedFloat.compare, beq_iff_eq, Option.some.injEq]
  rcases lt_trichotomy e₁ e₂ with he | rfl | he
  · simp [compare_lt_iff_lt.2 he, he]
  · simp [compare_lt_iff_lt]
  · simp [compare_gt_iff_gt.2 he, he.not_gt, he.ne']

theorem lt_zero {u : UnpackedFloat} (h : Stored u) : u.lt (.zero .positive) = false := by
  cases u with
  | zero s => rfl
  | finite s m e hm =>
    obtain rfl : s = .positive := h.1
    rfl
  | infinity s => exact h.elim
  | notANumber => exact h.elim

/-- Of two stored doubles of one sign, the one with the smaller exponent is the smaller: it lies
below its binade's top, the other at or above its own binade's bottom. -/
theorem value_lt_of_exponent_lt {m₁ m₂ : ℕ} {e₁ e₂ : ℤ} {h₁ : 0 < m₁} {h₂ : 0 < m₂}
    (ha : Stored (.finite .positive m₁ e₁ h₁)) (hb : Stored (.finite .positive m₂ e₂ h₂))
    (he : e₁ < e₂) : (m₁ : ℚ) * 2 ^ e₁ < m₂ * 2 ^ e₂ := by
  obtain ⟨-, h53, hlo, -, -⟩ := ha
  obtain ⟨-, -, -, -, hnorm⟩ := hb
  calc (m₁ : ℚ) * 2 ^ e₁ < ((2 ^ 53 : ℕ) : ℚ) * 2 ^ e₁ := by gcongr
    _ = 2 ^ ((53 : ℕ) + e₁ : ℤ) := cast_two_pow_mul 53 e₁
    _ ≤ 2 ^ ((52 : ℕ) + e₂ : ℤ) := zpow_le_zpow_right₀ (by norm_num) (by omega)
    _ = ((2 ^ 52 : ℕ) : ℚ) * 2 ^ e₂ := (cast_two_pow_mul 52 e₂).symm
    _ ≤ m₂ * 2 ^ e₂ := by gcongr; exact_mod_cast hnorm (by omega)

/-- Stored doubles compare as their values do. -/
theorem lt_iff_value_lt {a b : UnpackedFloat} (ha : Stored a) (hb : Stored b) :
    a.lt b = true ↔ value a < value b := by
  cases a with
  | zero s =>
    obtain rfl : s = .positive := ha
    cases b with
    | zero s' =>
      obtain rfl : s' = .positive := hb
      simp only [value, lt_self_iff_false, iff_false]
      decide
    | finite s' m e hm =>
      obtain rfl : s' = .positive := hb.1
      simp only [value]
      exact iff_of_true rfl (by positivity)
    | infinity s' => exact hb.elim
    | notANumber => exact hb.elim
  | finite s m₁ e₁ h₁ =>
    obtain rfl : s = .positive := ha.1
    cases b with
    | zero s' =>
      obtain rfl : s' = .positive := hb
      simp only [value]
      exact iff_of_false Bool.false_ne_true (not_lt.2 (by positivity))
    | finite s' m₂ e₂ h₂ =>
      obtain rfl : s' = .positive := hb.1
      rw [lt_finite_iff]
      simp only [value]
      constructor
      · rintro (he | ⟨rfl, hm⟩)
        · exact value_lt_of_exponent_lt ha hb he
        · gcongr
      · intro hlt
        rcases lt_trichotomy e₁ e₂ with he | rfl | he
        · exact Or.inl he
        · exact Or.inr ⟨rfl, by exact_mod_cast lt_of_mul_lt_mul_right hlt (by positivity)⟩
        · exact absurd hlt (value_lt_of_exponent_lt hb ha he).asymm
    | infinity s' => exact hb.elim
    | notANumber => exact hb.elim
  | infinity s => exact ha.elim
  | notANumber => exact ha.elim

/-! ## Operations on stored doubles -/

/-- A stored double of value at least `2^-1021` keeps all 53 bits. -/
theorem Stored.normal {m : ℕ} {e : ℤ} {hm : 0 < m} (h : Stored (.finite .positive m e hm))
    (hv : (2 : ℚ) ^ (-1021 : ℤ) ≤ m * 2 ^ e) : 2 ^ 52 ≤ m := by
  obtain ⟨-, h53, hlo, -, hnorm⟩ := h
  refine hnorm (lt_of_le_of_ne hlo fun heq => ?_)
  subst heq
  have : (m : ℚ) * 2 ^ (-1074 : ℤ) < 2 ^ (-1021 : ℤ) := by
    calc (m : ℚ) * 2 ^ (-1074 : ℤ) < ((2 ^ 53 : ℕ) : ℚ) * 2 ^ (-1074 : ℤ) := by gcongr
      _ = 2 ^ (-1021 : ℤ) := by rw [cast_two_pow_mul]; norm_num
  linarith

theorem value_nonneg (u : UnpackedFloat) : 0 ≤ value u := by
  cases u <;> simp only [value, le_refl]
  positivity

theorem Stored.cases {u : UnpackedFloat} (h : Stored u) :
    u = .zero .positive ∨ ∃ m e hm, u = .finite .positive m e hm := by
  cases u with
  | zero s => exact .inl (by rw [show s = .positive from h])
  | finite s m e hm => exact .inr ⟨m, e, hm, by rw [show s = .positive from h.1]⟩
  | infinity s => exact h.elim
  | notANumber => exact h.elim

/-- The product of two stored doubles, each zero or at least `2^-1021`, rounds the product of
their values. -/
theorem mul_stored {a b : UnpackedFloat} (ha : Stored a) (hb : Stored b)
    (hna : value a = 0 ∨ (2 : ℚ) ^ (-1021 : ℤ) ≤ value a)
    (hnb : value b = 0 ∨ (2 : ℚ) ^ (-1021 : ℤ) ≤ value b) :
    RoundedOf (UnpackedFloat.mul Format.binary64 a b) (value a * value b) := by
  have hzero : RoundedOf (.zero .positive) 0 := roundedOf_value (u := .zero .positive) rfl
  rcases ha.cases with rfl | ⟨m₁, e₁, h₁, rfl⟩
  · rcases hb.cases with rfl | ⟨m₂, e₂, h₂, rfl⟩
    · show RoundedOf (.zero .positive) _
      simpa [value] using hzero
    · show RoundedOf (.zero .positive) _
      simpa [value] using hzero
  · rcases hb.cases with rfl | ⟨m₂, e₂, h₂, rfl⟩
    · show RoundedOf (.zero .positive) _
      simpa [value] using hzero
    · have hn₁ := ha.normal ((hna.resolve_left (by simp only [value]; positivity)))
      have hn₂ := hb.normal ((hnb.resolve_left (by simp only [value]; positivity)))
      exact mul_finite h₁ h₂ hn₁ hn₂

/-- The sum of two stored doubles rounds the sum of their values. -/
theorem add_stored {a b : UnpackedFloat} (ha : Stored a) (hb : Stored b) :
    RoundedOf (UnpackedFloat.add Format.binary64 a b) (value a + value b) := by
  rcases ha.cases with rfl | ⟨m₁, e₁, h₁, rfl⟩
  · rcases hb.cases with rfl | ⟨m₂, e₂, h₂, rfl⟩
    · show RoundedOf (.zero .positive) _
      simpa [value] using roundedOf_value (u := .zero .positive) rfl
    · show RoundedOf (.finite .positive m₂ e₂ h₂) _
      simpa [value] using roundedOf_value hb
  · rcases hb.cases with rfl | ⟨m₂, e₂, h₂, rfl⟩
    · show RoundedOf (.finite .positive m₁ e₁ h₁) _
      simpa [value] using roundedOf_value ha
    · exact add_finite h₁ h₂

/-- The quotient of a stored double by a positive one, zero or not near the bottom of the range,
rounds the quotient of their values. -/
theorem div_stored {a b : UnpackedFloat} (ha : Stored a) (hb : Stored b) (hb0 : 0 < value b)
    (hq : value a = 0 ∨ (2 : ℚ) ^ (-1020 : ℤ) ≤ value a / value b) :
    RoundedOf (UnpackedFloat.div Format.binary64 a b) (value a / value b) := by
  rcases hb.cases with rfl | ⟨m₂, e₂, h₂, rfl⟩
  · simp [value] at hb0
  rcases ha.cases with rfl | ⟨m₁, e₁, h₁, rfl⟩
  · show RoundedOf (.zero .positive) _
    simpa [value] using roundedOf_value (u := .zero .positive) rfl
  · exact div_finite h₁ h₂ (hq.resolve_left (by simp only [value]; positivity))

theorem le_eq_not_lt {a b : UnpackedFloat} (ha : Stored a) (hb : Stored b) : a.le b = !b.lt a := by
  rcases ha.cases with rfl | ⟨m₁, e₁, h₁, rfl⟩ <;> rcases hb.cases with rfl | ⟨m₂, e₂, h₂, rfl⟩
  · rfl
  · rfl
  · rfl
  · simp only [UnpackedFloat.le, UnpackedFloat.lt, UnpackedFloat.compare]
    rcases lt_trichotomy e₁ e₂ with he | rfl | he
    · simp [compare_lt_iff_lt.2 he, compare_gt_iff_gt.2 he]
    · rcases lt_trichotomy m₁ m₂ with hm | rfl | hm
      · simp [compare_lt_iff_lt.2 hm, compare_gt_iff_gt.2 hm]
      · simp
      · simp [compare_lt_iff_lt.2 hm, compare_gt_iff_gt.2 hm]
    · simp [compare_lt_iff_lt.2 he, compare_gt_iff_gt.2 he]

/-- Stored doubles compare, not above, as their values do. -/
theorem le_iff_value_le {a b : UnpackedFloat} (ha : Stored a) (hb : Stored b) :
    a.le b = true ↔ value a ≤ value b := by
  rw [le_eq_not_lt ha hb, Bool.not_eq_true', Bool.eq_false_iff, ne_eq, lt_iff_value_lt hb ha,
    not_lt]

/-! ## Doubles -/

def toDouble (u : UnpackedFloat) : Float := Float.ofModel (Float.Model.pack u)

theorem toDouble_unpack {u : UnpackedFloat} (h : Stored u) : (toDouble u).toModel.unpack = u :=
  unpack_pack h

theorem toDouble_mul {a b : UnpackedFloat} (ha : Stored a) (hb : Stored b) :
    toDouble a * toDouble b = toDouble (UnpackedFloat.mul Format.binary64 a b) := by
  change Float.ofModel (Float.Model.pack (UnpackedFloat.mul Format.binary64
    (toDouble a).toModel.unpack (toDouble b).toModel.unpack)) = _
  rw [toDouble_unpack ha, toDouble_unpack hb]
  rfl

theorem toDouble_add {a b : UnpackedFloat} (ha : Stored a) (hb : Stored b) :
    toDouble a + toDouble b = toDouble (UnpackedFloat.add Format.binary64 a b) := by
  change Float.ofModel (Float.Model.pack (UnpackedFloat.add Format.binary64
    (toDouble a).toModel.unpack (toDouble b).toModel.unpack)) = _
  rw [toDouble_unpack ha, toDouble_unpack hb]
  rfl

theorem toDouble_div {a b : UnpackedFloat} (ha : Stored a) (hb : Stored b) :
    toDouble a / toDouble b = toDouble (UnpackedFloat.div Format.binary64 a b) := by
  change Float.ofModel (Float.Model.pack (UnpackedFloat.div Format.binary64
    (toDouble a).toModel.unpack (toDouble b).toModel.unpack)) = _
  rw [toDouble_unpack ha, toDouble_unpack hb]
  rfl

theorem toDouble_lt {a b : UnpackedFloat} (ha : Stored a) (hb : Stored b) :
    toDouble a < toDouble b ↔ a.lt b = true := by
  change Float.lt (toDouble a) (toDouble b) = true ↔ _
  unfold Float.lt
  rw [decide_eq_true_iff]
  change (toDouble a).toModel.unpack.lt (toDouble b).toModel.unpack = true ↔ _
  rw [toDouble_unpack ha, toDouble_unpack hb]

theorem toDouble_le {a b : UnpackedFloat} (ha : Stored a) (hb : Stored b) :
    toDouble a ≤ toDouble b ↔ a.le b = true := by
  change Float.le (toDouble a) (toDouble b) = true ↔ _
  unfold Float.le
  rw [decide_eq_true_iff]
  change (toDouble a).toModel.unpack.le (toDouble b).toModel.unpack = true ↔ _
  rw [toDouble_unpack ha, toDouble_unpack hb]

theorem toNat_toBits_toDouble (u : UnpackedFloat) :
    (toDouble u).toBits.toNat = (UnpackedFloat.pack Format.binary64 u).toNat := rfl

/-- The bits of a stored positive double: its biased exponent field, zero below 53 bits, and
the low 52 bits of its significand. -/
theorem toNat_toBits_finite {m : ℕ} {e : ℤ} {hm : 0 < m} (h : Stored (.finite .positive m e hm)) :
    (toDouble (.finite .positive m e hm)).toBits.toNat =
      bitsOf false (if 2 ^ 52 ≤ m then (e + 1075).toNat else 0) (m % 2 ^ 52) := by
  rw [toNat_toBits_toDouble, pack_finite h, toNat_packComponents_positive, bitsOf]
  obtain ⟨-, h53, hlo, hhi, -⟩ := h
  split
  · simp only [BitVec.toNat_ofNat, Bool.false_eq_true, if_false, zero_add]
    omega
  · simp

theorem toNat_toBits_zero : (toDouble (.zero .positive)).toBits.toNat = bitsOf false 0 0 := rfl

/-- A double is split into the significand and exponent it stores. -/
theorem split_toDouble {m : ℕ} {e : ℤ} {hm : 0 < m} (h : Stored (.finite .positive m e hm)) :
    split (toDouble (.finite .positive m e hm)) = ⟨false, m, e⟩ := by
  have hbits := toNat_toBits_finite h
  obtain ⟨-, h53, hlo, hhi, hnorm⟩ := h
  rw [split_eq]
  simp only [hbits]
  by_cases h52 : 2 ^ 52 ≤ m
  · obtain ⟨h1, h2, h3⟩ := bitsOf_fields false (show (e + 1075).toNat < 2 ^ 11 by omega)
      (Nat.mod_lt m (show 0 < 2 ^ 52 by norm_num))
    simp only [if_pos h52, h1, h2, h3, Bool.false_eq_true, if_false]
    rw [if_neg (by omega)]
    congr 1 <;> omega
  · have he : e = -1074 := by
      by_contra hne
      exact h52 (hnorm (by omega))
    obtain ⟨h1, h2, h3⟩ := bitsOf_fields false (show 0 < 2 ^ 11 by norm_num)
      (Nat.mod_lt m (show 0 < 2 ^ 52 by norm_num))
    simp only [if_neg h52, h1, h2, h3, Bool.false_eq_true, if_false, if_true]
    congr 1 <;> omega

theorem split_toDouble_zero : split (toDouble (.zero .positive)) = ⟨false, 0, -1074⟩ := by
  rw [split_eq, toNat_toBits_zero]
  rfl

theorem isSpecial_toDouble {u : UnpackedFloat} (h : Stored u) : isSpecial (toDouble u) = false := by
  rw [Bool.eq_false_iff, ne_eq, isSpecial_iff]
  cases u with
  | zero s =>
    obtain rfl : s = .positive := h
    rw [toNat_toBits_zero]
    decide
  | finite s m e hm =>
    obtain rfl : s = .positive := h.1
    rw [toNat_toBits_finite h]
    obtain ⟨-, h53, hlo, hhi, -⟩ := h
    have hf : (if 2 ^ 52 ≤ m then (e + 1075).toNat else 0) < 2047 := by split <;> omega
    rw [(bitsOf_fields false (show _ < 2 ^ 11 by omega) (Nat.mod_lt m (show 0 < 2 ^ 52 by norm_num))).1]
    omega
  | infinity s => exact h.elim
  | notANumber => exact h.elim

/-! ## `pack` and `nearest` -/

/-- `pack` of a clear sign bit, a biased exponent and a fraction is the stored double of 53 bits
with those fields. -/
theorem pack_eq_toDouble_normal {m : ℕ} {e : ℤ} {hm : 0 < m} (h : Stored (.finite .positive m e hm))
    (h52 : 2 ^ 52 ≤ m) : pack false (e + 1075).toNat (m - 2 ^ 52) = toDouble (.finite .positive m e hm) := by
  have hbits := toNat_toBits_finite h
  obtain ⟨-, h53, hlo, hhi, -⟩ := h
  rw [if_pos h52, show m % 2 ^ 52 = m - 2 ^ 52 by omega] at hbits
  exact pack_eq_of_toBits (by omega) (by omega) (by omega) hbits

/-- `pack` with a zero exponent field is the stored double with fewer than 53 bits at the least
exponent. -/
theorem pack_eq_toDouble_subnormal {m : ℕ} (hm : 0 < m) (h52 : m < 2 ^ 52) :
    pack false 0 m = toDouble (.finite .positive m (-1074) hm) := by
  have hbits := toNat_toBits_finite (show Stored (.finite .positive m (-1074) hm) from
    ⟨rfl, by omega, le_refl _, by norm_num, fun h => absurd h (lt_irrefl _)⟩)
  rw [if_neg (by omega), Nat.mod_eq_of_lt h52] at hbits
  exact pack_eq_of_toBits (by norm_num) h52 (by omega) hbits

theorem pack_eq_toDouble_zero : pack false 0 0 = toDouble (.zero .positive) :=
  pack_eq_of_toBits (by norm_num) (by norm_num) (by omega) toNat_toBits_zero

/-- `nearest` stores its value rounded half to even, as the model's own operations do. -/
theorem nearest_roundedOf {num den : ℕ} (hden : 0 < den) (hv : (num : ℚ) / den < 2 ^ (1023 : ℤ)) :
    ∃ u, RoundedOf u (num / den) ∧ Stored u ∧ nearest false num den = toDouble u := by
  rcases Nat.eq_zero_or_pos num with h0 | hnum
  · refine ⟨.zero .positive, ?_, rfl, ?_⟩
    · have := roundedOf_value (u := .zero .positive) rfl
      simpa [h0, value] using this
    · rw [nearest, if_pos h0]
      exact pack_eq_toDouble_zero
  obtain ⟨hb1, hb2⟩ := floorLog2_spec hnum hden
  have hb : floorLog2 num den < 1023 :=
    (zpow_lt_zpow_iff_right₀ (by norm_num : (1 : ℚ) < 2)).1 (lt_of_le_of_lt hb1 hv)
  set E := max (floorLog2 num den - 52) (-1074) with hE
  have hstored : StoredAt ((num : ℚ) / den) E := by
    refine ⟨le_max_right _ _, lt_of_lt_of_le hb2 (zpow_le_zpow_right₀ (by norm_num) (by omega)),
      fun hgt => le_trans (zpow_le_zpow_right₀ (by norm_num) (by omega)) hb1⟩
  have hn := @roundsTo_roundScaled num den E hden
  generalize (if E ≥ 0 then roundHalfEven num (den * 2 ^ E.toNat)
    else roundHalfEven (num * 2 ^ (-E).toNat) den) = n at hn
  have hsto := stored_ofRounded hstored hn (by omega)
  refine ⟨ofRounded n E, ⟨E, n, hstored, hn, rfl⟩, hsto, ?_⟩
  rw [nearest_of_round hnum hden hE.symm hn]
  -- the three stored shapes: zero, fewer than 53 bits, and 53 bits (after a carry too)
  unfold ofRounded at hsto ⊢
  by_cases h0 : n = 0
  · simp only [h0, dif_pos, show (0 : ℕ) ≠ 2 ^ 53 by norm_num, if_false,
      show ¬(E + 52 > 1023) by omega, show (0 : ℕ) < 2 ^ 52 by norm_num, if_true]
    exact pack_eq_toDouble_zero
  by_cases h53 : n = 2 ^ 53
  · simp only [h53, if_true] at hsto ⊢
    simp only [show ¬(E + 1 + 52 > 1023) by omega, if_false, lt_irrefl]
    exact pack_eq_toDouble_normal hsto (le_refl _)
  · simp only [dif_neg h0, if_neg h53] at hsto ⊢
    simp only [show ¬(E + 52 > 1023) by omega, if_false]
    split
    · next hsmall =>
      have he : E = -1074 := by
        by_contra hne
        exact absurd (hsto.2.2.2.2 (by omega)) (by omega)
      rw [he]
      exact pack_eq_toDouble_subnormal _ hsmall
    · next hbig => exact pack_eq_toDouble_normal hsto (by omega)

/-- A positive count below `2^53` reads as a positive double that holds it exactly. -/
theorem ofDecimal_count_exact {n : ℕ} (h0 : 0 < n) (h : n < 2 ^ 53) :
    ∃ m e hm, Stored (.finite .positive m e hm) ∧ (m : ℚ) * 2 ^ e = n ∧
      ofDecimal false n 0 = toDouble (.finite .positive m e hm) := by
  have hv : (n : ℚ) / (1 : ℕ) < 2 ^ (1023 : ℤ) := by
    rw [Nat.cast_one, div_one]
    calc (n : ℚ) < 2 ^ 53 := by exact_mod_cast h
      _ ≤ 2 ^ ((1023 : ℕ) : ℤ) := by
        rw [zpow_natCast]
        exact pow_le_pow_right₀ (by norm_num) (by norm_num)
  obtain ⟨u, hround, hstored, hnear⟩ := @nearest_roundedOf n 1 one_pos hv
  rw [Nat.cast_one, div_one] at hround
  have hvalue := hround.value_eq_nat h
  rw [ofDecimal_count (by omega), hnear]
  cases u with
  | zero s =>
    have : n = 0 := by exact_mod_cast (hvalue.symm.trans rfl : (n : ℚ) = 0)
    omega
  | finite s m e hm =>
    obtain rfl : s = .positive := hstored.1
    exact ⟨m, e, hm, hstored, hvalue, rfl⟩
  | infinity s => exact hstored.elim
  | notANumber => exact hstored.elim

end ClipSearch.Decimal.Binary
