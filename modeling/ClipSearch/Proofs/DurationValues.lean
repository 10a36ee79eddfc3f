import ClipSearch.Proofs.Rounding
import ClipSearch.Proofs.ScanWritten
import ClipSearch.Duration
/-!
# The numbers of a duration

A duration is typed as runs of ASCII digits. Read as a double, digits with a fraction are the
nearest double to their decimal (`readFloat_digits`); read as a count, they are their value, or
nothing past the largest 64-bit count (`readDigitsOnly_eq`, `readCount_digits`); a fraction of
a second keeps its first three digits (`fractionMillis_digits`).

`minutes:seconds` is computed as `m * 60000.0 + s * 1000.0` and rounded to a count: the count
is the whole number nearest to the double's value, a half going up, held at the largest 64-bit
count (`roundToCount_toDouble`). For minutes and seconds below sixty with at most seven digits
of fraction, the double is within `2^-31` of the exact milliseconds (`minutesSeconds_sum`); for
minutes past `2^64` milliseconds it is at least `2^64` (`minutesSeconds_past_count`).
-/
namespace ClipSearch.Duration

open ClipSearch.Decimal ClipSearch.Decimal.Binary ClipSearch.Text Float.Model Float.Model.UnpackedFloat

/-! ## Reading runs of digits -/

section Digits

variable {ds fs : List Char}

theorem toLower_of_isDigit {c : Char} (h : c.isDigit = true) : c.toLower = c := by
  simp only [Char.isDigit, Bool.and_eq_true, decide_eq_true_eq] at h
  unfold Char.toLower
  rw [dif_neg]
  rintro ⟨hA, -⟩
  have h9 : c.val.toNat ≤ 57 := UInt32.le_iff_toNat_le.1 h.2
  have hA' : 65 ≤ c.val.toNat := UInt32.le_iff_toNat_le.1 hA
  omega

theorem spanDigits_append (hd : ∀ c ∈ ds, c.isDigit = true) {rest : List Char}
    (hr : ∀ c ∈ rest.head?, c.isDigit = false) : spanDigits (ds ++ rest) = (ds, rest) := by
  have htake : rest.takeWhile Char.isDigit = [] := by
    cases rest with
    | nil => rfl
    | cons c r => simp [hr c rfl]
  have hdrop : rest.dropWhile Char.isDigit = rest := by
    cases rest with
    | nil => rfl
    | cons c r => simp [hr c rfl]
  simp only [spanDigits, List.takeWhile_append_of_pos hd, List.dropWhile_append_of_pos hd, htake,
    hdrop, List.append_nil]

theorem ofList_ne_of_head {l : List Char} {w : String} (hne : l ≠ [])
    (hl : ∀ c ∈ l.head?, c.isDigit = true) (hw : ∃ c r, w.toList = c :: r ∧ c.isDigit = false) :
    String.ofList l ≠ w := by
  intro heq
  obtain ⟨c, t, rfl⟩ := List.exists_cons_of_ne_nil hne
  obtain ⟨c', r, hw, hc'⟩ := hw
  have hlist := congrArg String.toList heq
  rw [String.toList_ofList, hw, List.cons.injEq] at hlist
  rw [← hlist.1, hl c rfl] at hc'
  exact Bool.noConfusion hc'

/-- A run of digits, with an optional point and fraction, reads as the nearest double to its
decimal value. -/
theorem readFloat_digits (hne : ds ≠ []) (hd : ∀ c ∈ ds, c.isDigit = true) {rest : List Char}
    (hrest : rest = [] ∨ ∃ fs, rest = '.' :: fs ∧ ∀ c ∈ fs, c.isDigit = true) :
    readFloat (String.ofList (ds ++ rest)) =
      some (Binary.ofDecimal false (digitsValue (ds ++ (rest.drop 1))) (-((rest.drop 1).length : ℤ))) := by
  obtain ⟨d, t, rfl⟩ := List.exists_cons_of_ne_nil hne
  have hdd := hd d List.mem_cons_self
  have hplus : d ≠ '+' := by rintro rfl; revert hdd; decide
  have hminus : d ≠ '-' := by rintro rfl; revert hdd; decide
  simp only [readFloat, String.toList_ofList, List.cons_append]
  split
  · next r heq => exact absurd (List.cons.inj heq).1 hplus
  · next r heq => exact absurd (List.cons.inj heq).1 hminus
  · next r h1 h2 =>
    have hword : ∀ w : String, (∃ c r, w.toList = c :: r ∧ c.isDigit = false) →
        (String.ofList ((d :: (t ++ rest)).map Char.toLower) == w) = false := fun w hw =>
      beq_false_of_ne (ofList_ne_of_head (by simp) (by simp [toLower_of_isDigit hdd, hdd]) hw)
    have hspan : spanDigits (d :: (t ++ rest)) = (d :: t, rest) := by
      rw [← List.cons_append]
      exact spanDigits_append hd (by rcases hrest with rfl | ⟨fs, rfl, -⟩ <;> simp)
    simp only [hword "inf" ⟨_, _, rfl, rfl⟩, hword "infinity" ⟨_, _, rfl, rfl⟩,
      hword "nan" ⟨_, _, rfl, rfl⟩,
      hspan, Bool.false_or, Bool.false_eq_true, if_false]
    rcases hrest with rfl | ⟨fs, rfl, hfs⟩
    · simp
    · have hfrac : spanDigits fs = (fs, []) := by
        simpa using @spanDigits_append fs hfs [] (by simp)
      simp [hfrac]

theorem readDigitsOnly_digits (hne : ds ≠ []) (hd : ∀ c ∈ ds, c.isDigit = true)
    (hv : digitsValue ds ≤ countLimit) : readDigitsOnly (String.ofList ds) = some (digitsValue ds) := by
  have hempty : ds.isEmpty = false := List.isEmpty_eq_false_iff.2 hne
  have hall : ds.all Char.isDigit = true := List.all_eq_true.2 hd
  simp [readDigitsOnly, hempty, hall, hv]

/-- Digits read as their count, refused past the largest 64-bit count. -/
theorem readDigitsOnly_eq (hne : ds ≠ []) (hd : ∀ c ∈ ds, c.isDigit = true) :
    readDigitsOnly (String.ofList ds) =
      if digitsValue ds ≤ countLimit then some (digitsValue ds) else none := by
  split
  · next hv => exact readDigitsOnly_digits hne hd hv
  · next hv => simp [readDigitsOnly, hv]

/-- Digits are a bare count, refused past the largest 64-bit count. -/
theorem readCount_digits (hne : ds ≠ []) (hd : ∀ c ∈ ds, c.isDigit = true) :
    readCount (String.ofList ds) =
      if digitsValue ds ≤ countLimit then some (digitsValue ds) else none := by
  obtain ⟨c, t, rfl⟩ := List.exists_cons_of_ne_nil hne
  have hplus : c ≠ '+' := by
    rintro rfl
    exact Bool.noConfusion (hd '+' List.mem_cons_self)
  have hall : (c :: t).all Char.isDigit = true := List.all_eq_true.2 hd
  have hlim : ∀ v, v < Nat.pow 2 64 ↔ v ≤ countLimit := fun v => by
    unfold countLimit
    simp only [Nat.pow_eq]
    omega
  unfold readCount
  simp only [String.toList_ofList]
  split
  · next r heq => exact absurd (List.cons.inj heq).1 hplus
  · simp [hall, hlim]

/-- Up to seven digits of a fraction of a second read as its milliseconds, the rest cut away. -/
theorem fractionMillis_digits (hd : ∀ c ∈ fs, c.isDigit = true) (h7 : fs.length ≤ 7) :
    fractionMillis (String.ofList fs) = some (digitsValue fs * 1000 / 10 ^ fs.length) := by
  by_cases hne : fs = []
  · subst hne
    rfl
  have hempty : fs.isEmpty = false := List.isEmpty_eq_false_iff.2 hne
  have hall : fs.all Char.isDigit = true := List.all_eq_true.2 hd
  have hlong : (fs.length > 7) = False := by simp only [gt_iff_lt, not_lt.2 h7]
  simp only [fractionMillis, String.toList_ofList, hempty, hall, hlong, Bool.false_eq_true,
    if_false, Bool.not_true, decide_false, Bool.or_false, Option.some.injEq]
  rcases Nat.lt_or_ge 3 fs.length with hk | hk
  · -- long ones are cut after the third digit
    have hsplit := digitsValue_append (fs.take 3) (fs.drop 3)
    have hrest : digitsValue (fs.drop 3) < 10 ^ (fs.drop 3).length :=
      Json.Scan.digitsValue_lt fun c hc => hd c (List.mem_of_mem_drop hc)
    rw [List.take_append_drop] at hsplit
    rw [List.length_drop] at hsplit hrest
    have h10 : 10 ^ fs.length = 10 ^ (fs.length - 3) * 1000 := by
      rw [show 1000 = 10 ^ 3 from rfl, ← pow_add, Nat.sub_add_cancel hk.le]
    rw [min_eq_left hk.le, Nat.sub_self, List.replicate_zero, List.append_nil, h10,
      Nat.mul_div_mul_right _ _ (by norm_num), hsplit, Nat.add_comm,
      Nat.add_mul_div_right _ _ (by positivity), Nat.div_eq_of_lt hrest, Nat.zero_add]
  · -- short fractions are padded with zeros
    rw [List.take_of_length_le hk, digitsValue_append, digitsValue_replicate_zero, Nat.add_zero,
      List.length_replicate, min_eq_right hk]
    have h1000 : 1000 = 10 ^ (3 - fs.length) * 10 ^ fs.length := by
      rw [← pow_add, Nat.sub_add_cancel hk]
      rfl
    rw [h1000, ← Nat.mul_assoc, Nat.mul_div_cancel _ (by positivity)]

end Digits

/-! ## Rounding a double to a count -/

/-- A half added and cut in whole units of `2^k`: what the count of a value below one unit per
bit comes to. -/
theorem floor_div_two_pow_add_half (a k : ℕ) :
    ⌊(a : ℚ) / 2 ^ k + 1 / 2⌋₊ = (2 * a + 2 ^ k) / 2 ^ (k + 1) := by
  have h : (a : ℚ) / 2 ^ k + 1 / 2 = ((2 * a + 2 ^ k : ℕ) : ℚ) / ((2 ^ (k + 1) : ℕ) : ℚ) := by
    push_cast
    field_simp
    ring
  rw [h, Nat.floor_div_eq_div]

/-- Rounding a stored double to a count takes the whole number nearest to its value, a half going
up, and holds it at the largest 64-bit count. -/
theorem roundToCount_toDouble {u : UnpackedFloat} (h : Stored u) :
    roundToCount (toDouble u) = min ⌊value u + 1 / 2⌋₊ countLimit := by
  rcases h.cases with rfl | ⟨m, e, hm, rfl⟩
  · -- the zero: a half of the least unit is cut away
    rw [roundToCount, split_toDouble_zero]
    have hcut : ∀ k : ℕ, (2 * 0 + Nat.pow 2 k) / Nat.pow 2 (k + 1) = 0 := fun k => by
      have := Nat.two_pow_pos k
      simp only [Nat.pow_eq, Nat.pow_succ]
      exact Nat.div_eq_of_lt (by omega)
    have hhalf : ⌊(0 : ℚ) + 1 / 2⌋₊ = 0 := Nat.floor_eq_zero.2 (by norm_num)
    rw [show value (.zero .positive) = 0 from rfl, hhalf]
    dsimp only
    rw [if_neg (by decide), hcut]
  · rw [roundToCount, split_toDouble h]
    simp only [value, Nat.pow_eq]
    congr 1
    split
    · next he =>
      have hval : (m : ℚ) * 2 ^ e = ((m * 2 ^ e.toNat : ℕ) : ℚ) := by
        push_cast
        rw [← zpow_natCast, Int.toNat_of_nonneg he]
      rw [hval]
      exact ((Nat.floor_eq_iff (by positivity)).2 ⟨by linarith, by linarith⟩).symm
    · -- a fraction of `2^k` units, `k = -e`
      next he =>
      have hval : (m : ℚ) * 2 ^ e = (m : ℚ) / 2 ^ (-e).toNat := by
        rw [div_eq_mul_inv, ← zpow_natCast, ← zpow_neg, Int.toNat_of_nonneg (by omega), neg_neg]
      rw [hval, floor_div_two_pow_add_half]

/-! ## Minutes and seconds in doubles -/

/-- A decimal of at most twenty digits with `k` of them after the point reads as the nearest double
to its value. -/
theorem ofDecimal_fraction {N k : ℕ} (hN : N < 10 ^ 20) (hk : k ≤ 20) :
    ofDecimal false N (-(k : ℤ)) = nearest false N (10 ^ k) := by
  have hlen : (Nat.toDigits 10 N).length ≤ 20 := length_toDigits_le hN (by norm_num)
  unfold ofDecimal
  simp only
  rcases Nat.eq_zero_or_pos N with rfl | hpos
  · rw [if_pos rfl]
    simp [nearest]
  · rw [if_neg (by omega), if_neg (by omega), if_neg (by omega)]
    split
    · next hk0 =>
      obtain rfl : k = 0 := by omega
      simp
    · next hk0 =>
      simp only [Nat.pow_eq, neg_neg, Int.toNat_natCast]

theorem lt_two_zpow_1023 {x : ℚ} {k : ℤ} (hk : k ≤ 1023) (hx : x < 2 ^ k) : x < 2 ^ (1023 : ℤ) :=
  lt_of_lt_of_le hx (zpow_le_zpow_right₀ (by norm_num) hk)

theorem zero_or_normal_of_nat (n : ℕ) : (n : ℚ) = 0 ∨ (2 : ℚ) ^ (-1021 : ℤ) ≤ n := by
  rcases Nat.eq_zero_or_pos n with rfl | hn
  · exact .inl Nat.cast_zero
  · refine .inr (le_trans (zpow_le_one_of_nonpos₀ (by norm_num) (by norm_num)) ?_)
    exact_mod_cast hn

/-- A whole number below `2^53` reads as a double of exactly its value. -/
theorem ofDecimal_whole {n : ℕ} (hn : n < 2 ^ 53) :
    ∃ a : UnpackedFloat, Stored a ∧ value a = n ∧ ofDecimal false n 0 = toDouble a := by
  obtain ⟨a, ha, ha_st, hx⟩ := @nearest_roundedOf n 1 one_pos (by
    rw [Nat.cast_one, div_one]
    exact lt_two_zpow_1023 (by norm_num : (53 : ℤ) ≤ 1023) (by exact_mod_cast hn))
  rw [Nat.cast_one, div_one] at ha
  exact ⟨a, ha_st, ha.value_eq_nat hn, by rw [ofDecimal_count (by omega), hx]⟩

theorem exists_toDouble_60000 :
    ∃ c : UnpackedFloat, (60000.0 : Float) = toDouble c ∧ Stored c ∧ value c = 60000 :=
  ⟨.finite .positive (60000 * 2 ^ 37) (-37) (by norm_num), rfl,
    ⟨rfl, by norm_num, by norm_num, by norm_num, fun _ => by norm_num⟩, by norm_num [value]⟩

theorem exists_toDouble_1000 :
    ∃ d : UnpackedFloat, (1000.0 : Float) = toDouble d ∧ Stored d ∧ value d = 1000 :=
  ⟨.finite .positive 8796093022208000 (-43) (by norm_num), rfl,
    ⟨rfl, by norm_num, by norm_num, by norm_num, fun _ => by norm_num⟩, by norm_num [value]⟩

/-- `m * 60000.0 + q * 1000.0` for a count of minutes `m` below sixty and seconds `q = N / 10^k`
below sixty, `k` at most seven, is a stored double within `2^-31` of the exact
`m * 60000 + q * 1000`: the minutes are exact, and each of the three roundings of the seconds,
their product and the sum is far below a millisecond. -/
theorem minutesSeconds_sum {mv N k : ℕ} (hmv : mv < 60) (hN : N < 60 * 10 ^ k) (hk : k ≤ 7) :
    ∃ z : UnpackedFloat, Stored z ∧
      |value z - (mv * 60000 + N / 10 ^ k * 1000)| < 2 ^ (-31 : ℤ) ∧
      ofDecimal false mv 0 * 60000.0 + ofDecimal false N (-(k : ℤ)) * 1000.0 = toDouble z := by
  have h10 : (0 : ℚ) < 10 ^ k := by positivity
  have hNk : (N : ℚ) / 10 ^ k < 60 := by
    rw [div_lt_iff₀ h10]
    exact_mod_cast hN
  obtain ⟨a, ha_st, ha_val, hx⟩ := ofDecimal_whole (by omega : mv < 2 ^ 53)
  obtain ⟨b, hb, hb_st, hy⟩ := @nearest_roundedOf N (10 ^ k) (by positivity) (by
    rw [Nat.cast_pow, Nat.cast_ofNat]
    exact lt_two_zpow_1023 (by norm_num : (22 : ℤ) ≤ 1023) (by norm_num; linarith))
  rw [Nat.cast_pow, Nat.cast_ofNat] at hb
  rw [← ofDecimal_fraction (by
    calc N < 60 * 10 ^ k := hN
      _ ≤ 60 * 10 ^ 7 := Nat.mul_le_mul_left _ (Nat.pow_le_pow_right (by norm_num) hk)
      _ < 10 ^ 20 := by norm_num) (by omega)] at hy
  have hb_err := hb.abs_sub_le (by norm_num : (-1021 : ℤ) ≤ 6) (by
    calc (N : ℚ) / 10 ^ k < 60 := hNk
      _ ≤ 2 ^ (6 : ℤ) := by norm_num)
  obtain ⟨c, hc, hc_st, hc_val⟩ := exists_toDouble_60000
  obtain ⟨d, hd, hd_st, hd_val⟩ := exists_toDouble_1000
  have hp := mul_stored ha_st hc_st (ha_val ▸ zero_or_normal_of_nat mv)
    (hc_val ▸ by exact_mod_cast zero_or_normal_of_nat 60000)
  rw [ha_val, hc_val, show (mv : ℚ) * 60000 = ((mv * 60000 : ℕ) : ℚ) by push_cast; ring] at hp
  have hp_val := hp.value_eq_nat (by omega)
  have hp_st := hp.stored (lt_two_zpow_1023 (by norm_num : (22 : ℤ) ≤ 1023)
    (by norm_num; exact_mod_cast (by omega : mv * 60000 < 4194304)))
  have hb_normal : value b = 0 ∨ (2 : ℚ) ^ (-1021 : ℤ) ≤ value b := by
    rcases Nat.eq_zero_or_pos N with rfl | hN0
    · left
      rw [Nat.cast_zero, zero_div, ← Nat.cast_zero] at hb
      exact_mod_cast hb.value_eq_nat (by norm_num)
    · right
      have hlow : (1 : ℚ) / 10 ^ 7 ≤ N / 10 ^ k := by
        rw [div_le_div_iff₀ (by positivity) h10, one_mul]
        calc (10 : ℚ) ^ k ≤ 10 ^ 7 := pow_le_pow_right₀ (by norm_num) hk
          _ ≤ N * 10 ^ 7 := le_mul_of_one_le_left (by positivity) (by exact_mod_cast hN0)
      have := (abs_le.1 hb_err).1
      calc (2 : ℚ) ^ (-1021 : ℤ) ≤ 2 ^ (-30 : ℤ) := zpow_le_zpow_right₀ (by norm_num) (by norm_num)
        _ ≤ 1 / 10 ^ 7 - 2 ^ ((6 : ℤ) - 54) := by norm_num
        _ ≤ value b := by linarith
  have hq := mul_stored hb_st hd_st hb_normal (hd_val ▸ by exact_mod_cast zero_or_normal_of_nat 1000)
  rw [hd_val] at hq
  have hb_top : value b * 1000 < 2 ^ (16 : ℤ) := by
    have := (abs_le.1 hb_err).2
    norm_num at this ⊢
    linarith
  have hq_err := hq.abs_sub_le (by norm_num) hb_top
  have hq_st := hq.stored (lt_two_zpow_1023 (by norm_num) hb_top)
  have hz := add_stored hp_st hq_st
  rw [hp_val] at hz
  have hz_top : ((mv * 60000 : ℕ) : ℚ) + value (UnpackedFloat.mul Format.binary64 b d) <
      2 ^ (22 : ℤ) := by
    have hm : ((mv * 60000 : ℕ) : ℚ) ≤ 3540000 := by exact_mod_cast (by omega : mv * 60000 ≤ 3540000)
    have := (abs_le.1 hq_err).2
    norm_num at this hb_top hm ⊢
    linarith
  have hz_err := hz.abs_sub_le (by norm_num) hz_top
  refine ⟨_, hz.stored (lt_two_zpow_1023 (by norm_num) hz_top), ?_, ?_⟩
  · -- the three roundings together stay below `2^-31`
    obtain ⟨hb1, hb2⟩ := abs_le.1 hb_err
    obtain ⟨hq1, hq2⟩ := abs_le.1 hq_err
    obtain ⟨hz1, hz2⟩ := abs_le.1 hz_err
    push_cast at hz1 hz2
    rw [abs_lt]
    norm_num at hb1 hb2 hq1 hq2 hz1 hz2 ⊢
    constructor <;> linarith
  · rw [hx, hy, hc, hd, toDouble_mul ha_st hc_st, toDouble_mul hb_st hd_st, toDouble_add hp_st hq_st]

/-- `m * 60000.0 + s * 1000.0` for whole counts `m` and `s` below `2^53`, the minutes' milliseconds
past `2^64` by `2^17` or more, is a stored double of at least `2^64`: both counts are exact, the
product errs by at most `2^15`, the seconds only add, and the sum errs by at most `2^16`. -/
theorem minutesSeconds_past_count {mv sv : ℕ} (hmv : mv < 2 ^ 53) (hsv : sv < 2 ^ 53)
    (hbig : 2 ^ 64 + 2 ^ 17 ≤ mv * 60000) :
    ∃ z : UnpackedFloat, Stored z ∧ (2 : ℚ) ^ (64 : ℤ) ≤ value z ∧
      ofDecimal false mv 0 * 60000.0 + ofDecimal false sv 0 * 1000.0 = toDouble z := by
  obtain ⟨a, ha_st, ha_val, hx⟩ := ofDecimal_whole hmv
  obtain ⟨b, hb_st, hb_val, hy⟩ := ofDecimal_whole hsv
  obtain ⟨c, hc, hc_st, hc_val⟩ := exists_toDouble_60000
  obtain ⟨d, hd, hd_st, hd_val⟩ := exists_toDouble_1000
  have hp := mul_stored ha_st hc_st (ha_val ▸ zero_or_normal_of_nat mv)
    (hc_val ▸ by exact_mod_cast zero_or_normal_of_nat 60000)
  rw [ha_val, hc_val] at hp
  have hp_top : (mv : ℚ) * 60000 < 2 ^ (69 : ℤ) := by
    have : mv * 60000 < 2 ^ 69 := by omega
    exact_mod_cast this
  have hp_err := hp.abs_sub_le (by norm_num) hp_top
  have hp_st := hp.stored (lt_two_zpow_1023 (by norm_num) hp_top)
  have hq := mul_stored hb_st hd_st (hb_val ▸ zero_or_normal_of_nat sv)
    (hd_val ▸ by exact_mod_cast zero_or_normal_of_nat 1000)
  rw [hb_val, hd_val] at hq
  have hq_top : (sv : ℚ) * 1000 < 2 ^ (63 : ℤ) := by
    have : sv * 1000 < 2 ^ 63 := by omega
    exact_mod_cast this
  have hq_err := hq.abs_sub_le (by norm_num) hq_top
  have hq_st := hq.stored (lt_two_zpow_1023 (by norm_num) hq_top)
  have hz := add_stored hp_st hq_st
  obtain ⟨hp1, hp2⟩ := abs_le.1 hp_err
  obtain ⟨-, hq2⟩ := abs_le.1 hq_err
  have hz_top : value (UnpackedFloat.mul Format.binary64 a c) +
      value (UnpackedFloat.mul Format.binary64 b d) < 2 ^ (70 : ℤ) := by
    norm_num at hp_top hq_top hp2 hq2 ⊢
    linarith
  have hz_err := hz.abs_sub_le (by norm_num) hz_top
  refine ⟨_, hz.stored (lt_two_zpow_1023 (by norm_num) hz_top), ?_, ?_⟩
  · have hbig' : (2 : ℚ) ^ 64 + 2 ^ 17 ≤ mv * 60000 := by exact_mod_cast hbig
    have hq0 := value_nonneg (UnpackedFloat.mul Format.binary64 b d)
    obtain ⟨hz1, -⟩ := abs_le.1 hz_err
    norm_num at hp1 hz1 hbig' ⊢
    linarith
  · rw [hx, hy, hc, hd, toDouble_mul ha_st hc_st, toDouble_mul hb_st hd_st, toDouble_add hp_st hq_st]

end ClipSearch.Duration
