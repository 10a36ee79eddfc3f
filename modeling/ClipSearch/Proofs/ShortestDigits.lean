import ClipSearch.Proofs.DurationValues
/-!
# The shortest digits of a double read back

`shortest` picks, for a finite double `m * 2^q`, a decimal with as few significant digits as it
can find inside the double's rounding interval `Binary.Rounds`: for `k = 1, 2, ...` it tests the
two decimals of `k` digits around the value in exact arithmetic (`readsBack_iff`). The grid of
seventeen digits is finer than the interval (`pickDigits_isSome`), so the search always ends on
a decimal inside it (`shortestOf_rounds`). Every decimal inside the interval reads as the double
(`ofDecimal_eq_of_rounds`), and the positional text is read as its own digits, so the text
written for a finite double without sign reads back as that double (`readFloat_render_plain`).
-/
namespace ClipSearch.Decimal

open Binary

/-! ## Exact comparisons -/

/-- A power with an integer exponent as the quotient of the natural powers of its two parts. -/
theorem zpow_eq_pow_toNat_div {B : ℚ} (hB : B ≠ 0) (e : ℤ) :
    B ^ e = B ^ e.toNat / B ^ (-e).toNat := by
  rw [eq_div_iff (pow_ne_zero _ hB), zpow_mul_pow_toNat_neg hB]

theorem compare_map {α β : Type} [LinearOrder α] [LinearOrder β] {f : α → β} (hf : StrictMono f)
    (a b : α) : compare (f a) (f b) = compare a b := by
  rw [← cmp_eq_compare, ← cmp_eq_compare, hf.cmp_map_eq]

/-- `compareScaled` compares `d * 10^e` with `x * 2^s` as rationals. -/
theorem compareScaled_eq (d : ℕ) (e : ℤ) (x : ℕ) (s : ℤ) :
    compareScaled d e x s = compare ((d : ℚ) * 10 ^ e) ((x : ℚ) * 2 ^ s) := by
  -- both sides times `10^(-e)⁺ * 2^(-s)⁺` are the natural numbers the definition compares
  have hP : (0 : ℚ) < 10 ^ (-e).toNat * 2 ^ (-s).toNat := by positivity
  have hl : (d : ℚ) * 10 ^ e * (10 ^ (-e).toNat * 2 ^ (-s).toNat) =
      ((d * Nat.pow 10 e.toNat * Nat.pow 2 (-s).toNat : ℕ) : ℚ) := by
    rw [← mul_assoc, mul_assoc (d : ℚ), zpow_mul_pow_toNat_neg (by norm_num), Nat.pow_eq,
      Nat.pow_eq]
    push_cast
    ring
  have hr : (x : ℚ) * 2 ^ s * (10 ^ (-e).toNat * 2 ^ (-s).toNat) =
      ((x * Nat.pow 2 s.toNat * Nat.pow 10 (-e).toNat : ℕ) : ℚ) := by
    rw [mul_comm ((10 : ℚ) ^ _), ← mul_assoc, mul_assoc (x : ℚ),
      zpow_mul_pow_toNat_neg (by norm_num), Nat.pow_eq, Nat.pow_eq]
    push_cast
    ring
  rw [← compare_map (strictMono_mul_right_of_pos hP), hl, hr, compare_map Nat.strictMono_cast]
  rfl

/-- The test of `readsBack` is membership in the rounding interval. -/
theorem readsBack_iff (b : Binary) (d : ℕ) (e : ℤ) :
    readsBack b.significand b.exponent b.lowerGapHalved d e = true ↔
      b.Rounds ((d : ℚ) * 10 ^ e) := by
  have hlo : (b.lowEnd : ℚ) = ((if b.lowerGapHalved then 4 * b.significand - 1
      else 4 * b.significand - 2 : ℕ) : ℚ) * 2 ^ (b.exponent - 2) := rfl
  have hhi : (b.highEnd : ℚ) = ((4 * b.significand + 2 : ℕ) : ℚ) * 2 ^ (b.exponent - 2) := rfl
  simp only [readsBack, compareScaled_eq, ← hlo, ← hhi, Bool.and_eq_true, Bool.or_eq_true,
    beq_iff_eq, compare_gt_iff_gt, compare_eq_iff_eq, compare_lt_iff_lt, Rounds]
  simp only [@eq_comm ℚ ((d : ℚ) * 10 ^ e) b.lowEnd]

/-! ## The decimals around a value -/

/-- `floorDiv10 m q e` is the number of whole units `10^e` in `m * 2^q`. -/
theorem floorDiv10_eq (m : ℕ) (q e : ℤ) : floorDiv10 m q e = ⌊(m : ℚ) * 2 ^ q / 10 ^ e⌋₊ := by
  have h : (m : ℚ) * 2 ^ q / 10 ^ e =
      ((m * Nat.pow 2 q.toNat * Nat.pow 10 (-e).toNat : ℕ) : ℚ) /
        ((Nat.pow 2 (-q).toNat * Nat.pow 10 e.toNat : ℕ) : ℚ) := by
    rw [zpow_eq_pow_toNat_div (by norm_num) q, zpow_eq_pow_toNat_div (by norm_num) e]
    simp only [Nat.pow_eq]
    push_cast
    field_simp
  rw [h, Nat.floor_div_eq_div]
  rfl

theorem floorDiv10_le (m : ℕ) (q e : ℤ) : (floorDiv10 m q e : ℚ) * 10 ^ e ≤ m * 2 ^ q := by
  rw [floorDiv10_eq, ← le_div_iff₀ (by positivity)]
  exact Nat.floor_le (by positivity)

theorem lt_floorDiv10_succ (m : ℕ) (q e : ℤ) :
    (m : ℚ) * 2 ^ q < ((floorDiv10 m q e : ℚ) + 1) * 10 ^ e := by
  rw [floorDiv10_eq, ← div_lt_iff₀ (by positivity)]
  exact Nat.lt_floor_add_one _

/-- Whatever `pickDigits` returns passes the test of `readsBack`. -/
theorem pickDigits_readsBack {m : ℕ} {q : ℤ} {h : Bool} {top : ℤ} {k : ℕ} {r : Digits}
    (hp : pickDigits m q h top k = some r) : readsBack m q h r.digits r.exponent = true := by
  unfold pickDigits at hp
  dsimp only at hp
  split at hp
  · next hlo hhi =>
    split_ifs at hp <;> cases hp <;> assumption
  · next hlo hhi =>
    cases hp
    exact hlo
  · next hlo hhi =>
    cases hp
    exact hhi
  · cases hp

/-- When the grid of `10^e` is finer than the rounding interval, one of the two decimals of
that grid around the value lies inside it, and `pickDigits` finds it. -/
theorem pickDigits_isSome {b : Binary} (hm : 0 < b.significand) {top : ℤ} {k : ℕ}
    (hgap : (10 : ℚ) ^ (top - ((k : ℤ) - 1)) < b.highEnd - b.lowEnd) :
    (pickDigits b.significand b.exponent b.lowerGapHalved top k).isSome = true := by
  set e := top - ((k : ℤ) - 1)
  set n := floorDiv10 b.significand b.exponent e
  have hbelow := floorDiv10_le b.significand b.exponent e
  have habove := lt_floorDiv10_succ b.significand b.exponent e
  have hlow := lowEnd_lt_value hm
  have hhigh := value_lt_highEnd b
  have hmissLo : readsBack b.significand b.exponent b.lowerGapHalved n e = false →
      (n : ℚ) * 10 ^ e ≤ b.lowEnd := by
    intro hr
    rw [← Bool.not_eq_true, readsBack_iff] at hr
    by_contra hlt
    exact hr ⟨.inl (lt_of_not_ge hlt), .inl (lt_of_le_of_lt hbelow hhigh)⟩
  have hmissHi : readsBack b.significand b.exponent b.lowerGapHalved (n + 1) e = false →
      b.highEnd ≤ ((n + 1 : ℕ) : ℚ) * 10 ^ e := by
    intro hr
    rw [← Bool.not_eq_true, readsBack_iff] at hr
    by_contra hlt
    push_cast at hlt
    exact hr ⟨.inl (by push_cast; linarith), .inl (by push_cast; linarith)⟩
  unfold pickDigits
  dsimp only
  cases hlo : readsBack b.significand b.exponent b.lowerGapHalved n e <;>
    cases hhi : readsBack b.significand b.exponent b.lowerGapHalved (n + 1) e
  · -- both miss: the grid step would span the whole interval
    have h1 := hmissLo hlo
    have h2 := hmissHi hhi
    push_cast at h2
    linarith
  · rfl
  · rfl
  · dsimp only
    split_ifs <;> rfl

/-! ## The leading digit's place -/

/-- Ten to `g - 2` is at most `2^n` when `g` is at most `0.30103 n`, for exponents of the size
of a double's: `10^3 ≤ 2^10` bounds the positive ones and `2^93 ≤ 10^28` the negative ones. -/
theorem ten_zpow_sub_two_le {n g : ℤ} (hg : 100000 * g ≤ 30103 * n) (hlo : -1200 ≤ n)
    (hhi : n ≤ 1200) : (10 : ℚ) ^ (g - 2) ≤ 2 ^ n := by
  rcases le_or_gt 0 n with hn | hn
  · rcases le_or_gt (g - 2) 0 with hg0 | hg0
    · calc (10 : ℚ) ^ (g - 2) ≤ 1 := zpow_le_one_of_nonpos₀ (by norm_num) hg0
        _ ≤ 2 ^ n := one_le_zpow₀ (by norm_num) hn
    · obtain ⟨a, ha⟩ : ∃ a : ℕ, g - 2 = a := ⟨(g - 2).toNat, by omega⟩
      obtain ⟨N, hN⟩ : ∃ N : ℕ, n = N := ⟨n.toNat, by omega⟩
      have h10 : 10 * a ≤ 3 * N := by omega
      have hnat : 10 ^ a ≤ 2 ^ N := by
        refine (pow_le_pow_iff_left₀ (by positivity) (by positivity) (by norm_num : 10 ≠ 0)).1 ?_
        calc (10 ^ a) ^ 10 = 10 ^ (10 * a) := by rw [← pow_mul, mul_comm]
          _ ≤ 10 ^ (3 * N) := Nat.pow_le_pow_right (by norm_num) h10
          _ = 1000 ^ N := by rw [pow_mul]; norm_num
          _ ≤ 1024 ^ N := Nat.pow_le_pow_left (by norm_num) N
          _ = (2 ^ N) ^ 10 := by rw [← pow_mul, mul_comm, pow_mul]; norm_num
      rw [ha, hN, zpow_natCast, zpow_natCast]
      exact_mod_cast hnat
  · obtain ⟨N, hN⟩ : ∃ N : ℕ, n = -N := ⟨(-n).toNat, by omega⟩
    obtain ⟨G, hG⟩ : ∃ G : ℕ, g - 2 = -G := ⟨(2 - g).toNat, by omega⟩
    have h93 : 28 * N ≤ 93 * G := by omega
    have hnat : 2 ^ N ≤ 10 ^ G := by
      refine (pow_le_pow_iff_left₀ (by positivity) (by positivity) (by norm_num : 93 ≠ 0)).1 ?_
      calc (2 ^ N) ^ 93 = (2 ^ 93) ^ N := by rw [← pow_mul, ← pow_mul, mul_comm]
        _ ≤ (10 ^ 28) ^ N := Nat.pow_le_pow_left (by norm_num) N
        _ = 10 ^ (28 * N) := by rw [← pow_mul]
        _ ≤ 10 ^ (93 * G) := Nat.pow_le_pow_right (by norm_num) h93
        _ = (10 ^ G) ^ 93 := by rw [← pow_mul, mul_comm]
    rw [hG, hN, zpow_neg, zpow_neg, zpow_natCast, zpow_natCast]
    exact inv_anti₀ (by positivity) (by exact_mod_cast hnat)

/-- `floorLog10` never overshoots: ten to it is at most the value. Each of the four places it
tests is checked exactly; the last, two below its estimate, is safe because the estimate
`0.30103` exceeds `log10 2` by too little to matter within the exponents of doubles. -/
theorem floorLog10_le {m : ℕ} (hm : 0 < m) (hm53 : m < 2 ^ 53) {q : ℤ} (hq : -1074 ≤ q)
    (hq' : q ≤ 971) : (10 : ℚ) ^ floorLog10 m q ≤ m * 2 ^ q := by
  have hbelow : ∀ e, (compareScaled 1 e m q != .gt) = true → (10 : ℚ) ^ e ≤ m * 2 ^ q := by
    intro e h
    rw [compareScaled_eq, bne_iff_ne, ne_eq, compare_gt_iff_gt, not_lt] at h
    simpa using h
  have hlog : m.log2 < 53 := (Nat.log2_lt hm.ne').2 hm53
  unfold floorLog10
  dsimp only
  split_ifs with h1 h2 h3 h4
  · exact hbelow _ h1
  · exact hbelow _ h2
  · exact hbelow _ h3
  · exact hbelow _ h4
  · calc (10 : ℚ) ^ ((q + (m.log2 : ℤ)) * 30103 / 100000 - 2) ≤ 2 ^ (q + (m.log2 : ℤ)) :=
          ten_zpow_sub_two_le (by omega) (by omega) (by omega)
      _ = 2 ^ m.log2 * 2 ^ q := by rw [zpow_add₀ two_ne_zero, zpow_natCast, mul_comm]
      _ ≤ m * 2 ^ q := by
          gcongr
          exact_mod_cast Nat.log2_self_le hm.ne'

/-! ## The search -/

/-- The search from `k` digits with `fuel + 1` tries ends on a decimal that reads back, as soon
as its last try finds one. -/
theorem search_readsBack {m : ℕ} {q : ℤ} {h : Bool} {top : ℤ} (fuel k : ℕ)
    (hlast : (pickDigits m q h top (k + fuel)).isSome = true) :
    readsBack m q h (shortestOf.search m q h top k (fuel + 1)).digits
      (shortestOf.search m q h top k (fuel + 1)).exponent = true := by
  induction fuel generalizing k with
  | zero =>
    obtain ⟨r, hr⟩ := Option.isSome_iff_exists.1 hlast
    rw [Nat.add_zero] at hr
    rw [shortestOf.search, hr]
    exact pickDigits_readsBack hr
  | succ fuel ih =>
    rw [shortestOf.search]
    cases hp : pickDigits m q h top k with
    | some r => exact pickDigits_readsBack hp
    | none => exact ih (k + 1) (by rwa [Nat.add_right_comm, Nat.add_assoc])

/-- Moving trailing zeros into the exponent keeps the value. -/
theorem normalize_go_value (fuel n : ℕ) (e : ℤ) :
    ((Digits.normalize.go fuel n e).digits : ℚ) * 10 ^ (Digits.normalize.go fuel n e).exponent =
      n * 10 ^ e := by
  induction fuel generalizing n e with
  | zero => rfl
  | succ fuel ih =>
    rw [Digits.normalize.go]
    split
    · next h =>
      have h10 : n % 10 = 0 := (by simpa using h : n ≠ 0 ∧ n % 10 = 0).2
      have hn : (n : ℚ) = ((n / 10 : ℕ) : ℚ) * 10 := by
        exact_mod_cast (Nat.div_mul_cancel (Nat.dvd_of_mod_eq_zero h10)).symm
      rw [ih, hn, zpow_add₀ (by norm_num), zpow_one]
      ring
    · rfl

theorem normalize_value (d : Digits) :
    (d.normalize.digits : ℚ) * 10 ^ d.normalize.exponent = d.digits * 10 ^ d.exponent :=
  normalize_go_value 20 d.digits d.exponent

/-- The digits `shortestOf` picks for a positive finite double lie in its rounding interval:
with seventeen digits the decimal grid is finer than the interval, so the search ends on a hit. -/
theorem shortestOf_rounds {b : Binary} (hm : 0 < b.significand) (hm53 : b.significand < 2 ^ 53)
    (hq : -1074 ≤ b.exponent) (hq' : b.exponent ≤ 971) :
    b.Rounds (((shortestOf b.significand b.exponent b.lowerGapHalved).digits : ℚ) *
      10 ^ (shortestOf b.significand b.exponent b.lowerGapHalved).exponent) := by
  set top := floorLog10 b.significand b.exponent
  have htop := floorLog10_le hm hm53 hq hq'
  have hquarter : (2 : ℚ) ^ (b.exponent - 2) = 2 ^ b.exponent / 4 := by
    rw [zpow_sub₀ two_ne_zero]
    norm_num
  have hpos : (0 : ℚ) < 2 ^ b.exponent := by positivity
  -- seventeen digits step by `10^(top - 16)`, at most the value over `10^16`
  have hgap : (10 : ℚ) ^ (top - (((16 + 1 : ℕ) : ℤ) - 1)) < b.highEnd - b.lowEnd := by
    rw [highEnd_sub_lowEnd hm, quarter, hquarter]
    calc (10 : ℚ) ^ (top - (((16 + 1 : ℕ) : ℤ) - 1)) = 10 ^ top / 10 ^ 16 := by
          rw [zpow_sub₀ (by norm_num)]
          norm_num
      _ ≤ b.significand * 2 ^ b.exponent / 10 ^ 16 := by gcongr
      _ < (if b.lowerGapHalved then 3 else 4) * (2 ^ b.exponent / 4) := by
          split
          · -- the bottom of a binade: the significand is `2^52`
            next hhalf =>
            rw [((lowerGapHalved_iff b).1 hhalf).1]
            push_cast
            nlinarith
          · have hm16 : (b.significand : ℚ) < 10 ^ 16 := by
              exact_mod_cast lt_of_lt_of_le hm53 (by norm_num)
            rw [div_lt_iff₀ (by norm_num)]
            nlinarith
  have hread := search_readsBack 16 1 (pickDigits_isSome hm hgap)
  rw [readsBack_iff] at hread
  unfold shortestOf
  rw [normalize_value]
  exact hread

/-! ## Reading a decimal back -/

theorem lt_ten_pow_length_toDigits (n : ℕ) : n < 10 ^ (Nat.toDigits 10 n).length :=
  (Nat.length_toDigits_le_iff (by decide) Nat.length_toDigits_pos).1 le_rfl

theorem ten_pow_length_toDigits_le {n : ℕ} (hn : 0 < n) :
    10 ^ ((Nat.toDigits 10 n).length - 1) ≤ n := by
  by_cases h1 : (Nat.toDigits 10 n).length = 1
  · rw [h1]
    exact hn
  · have hpos : 0 < (Nat.toDigits 10 n).length - 1 := by
      have := @Nat.length_toDigits_pos 10 n
      omega
    by_contra hlt
    have := (Nat.length_toDigits_le_iff (by decide) hpos).2 (lt_of_not_ge hlt)
    omega

theorem Binary.Rounds.lowEnd_le {b : Binary} {v : ℚ} (h : b.Rounds v) : b.lowEnd ≤ v := by
  rcases h.1 with hlt | ⟨-, heq⟩
  · exact hlt.le
  · exact heq.le

theorem Binary.Rounds.le_highEnd {b : Binary} {v : ℚ} (h : b.Rounds v) : v ≤ b.highEnd := by
  rcases h.2 with hlt | ⟨-, heq⟩
  · exact hlt.le
  · exact heq.le

/-- The rounding interval of a positive double starts at `2^-1075` at the least. -/
theorem two_zpow_le_lowEnd {b : Binary} (hm : 0 < b.significand) (hq : -1074 ≤ b.exponent) :
    (2 : ℚ) ^ (-1075 : ℤ) ≤ b.lowEnd := by
  have htwo : 2 ≤ (if b.lowerGapHalved then 4 * b.significand - 1 else 4 * b.significand - 2) := by
    split <;> omega
  calc (2 : ℚ) ^ (-1075 : ℤ) ≤ 2 ^ (b.exponent - 1) := zpow_le_zpow_right₀ (by norm_num) (by omega)
    _ = 2 * 2 ^ (b.exponent - 2) := by
        rw [show b.exponent - 1 = b.exponent - 2 + 1 by ring, zpow_add_one₀ two_ne_zero, mul_comm]
    _ ≤ b.lowEnd := by
        unfold lowEnd quarter
        gcongr
        exact_mod_cast htwo

/-- The rounding interval of a finite double ends at `2^1024` at the most. -/
theorem highEnd_le_two_zpow {b : Binary} (hm53 : b.significand < 2 ^ 53) (hq' : b.exponent ≤ 971) :
    b.highEnd ≤ 2 ^ (1024 : ℤ) := by
  have h55 : 4 * b.significand + 2 ≤ 2 ^ 55 := by omega
  calc b.highEnd ≤ ((2 ^ 55 : ℕ) : ℚ) * 2 ^ (b.exponent - 2) := by
        unfold highEnd quarter
        gcongr
    _ = 2 ^ (b.exponent + 53) := by
        rw [cast_two_pow_mul]
        congr 1
        push_cast
        ring
    _ ≤ 2 ^ (1024 : ℤ) := zpow_le_zpow_right₀ (by norm_num) (by omega)

/-- A positive decimal between `2^-1075` and `2^1024` has its leading digit between the places
`-350` and `330`, those `ofDecimal` reads directly. -/
theorem leadingPlace_bounds {D : ℕ} (hD : D ≠ 0) {E : ℤ} (hlow : (2 : ℚ) ^ (-1075 : ℤ) ≤ D * 10 ^ E)
    (hhigh : (D : ℚ) * 10 ^ E ≤ 2 ^ (1024 : ℤ)) :
    -350 ≤ ((Nat.toDigits 10 D).length : ℤ) + E ∧ ((Nat.toDigits 10 D).length : ℤ) + E ≤ 330 := by
  have hsize1 := ten_pow_length_toDigits_le (Nat.pos_of_ne_zero hD)
  have hsize2 := lt_ten_pow_length_toDigits D
  constructor
  · -- a leading place below `-350` keeps the value under `10^-351 < 2^-1075`
    by_contra hlt
    have hsmall : (10 : ℚ) ^ (-351 : ℤ) < 2 ^ (-1075 : ℤ) := by
      rw [show (-351 : ℤ) = -((351 : ℕ) : ℤ) from rfl, show (-1075 : ℤ) = -((1075 : ℕ) : ℤ) from rfl,
        zpow_neg, zpow_neg, zpow_natCast, zpow_natCast]
      refine inv_strictAnti₀ (by positivity) ?_
      exact_mod_cast (by decide +kernel : (2 : ℕ) ^ 1075 < 10 ^ 351)
    have hlead : (D : ℚ) * 10 ^ E < 10 ^ (-351 : ℤ) :=
      calc (D : ℚ) * 10 ^ E < (10 : ℚ) ^ (Nat.toDigits 10 D).length * 10 ^ E := by
            gcongr
            exact_mod_cast hsize2
        _ = 10 ^ (((Nat.toDigits 10 D).length : ℤ) + E) := by
            rw [zpow_add₀ (by norm_num), zpow_natCast]
        _ ≤ 10 ^ (-351 : ℤ) := zpow_le_zpow_right₀ (by norm_num) (by omega)
    exact absurd (hlow.trans_lt (hlead.trans hsmall)) (lt_irrefl _)
  · -- a leading place above `330` puts the value over `10^330 > 2^1024`
    by_contra hgt
    have hbig : (2 : ℚ) ^ (1024 : ℤ) < 10 ^ (330 : ℤ) := by
      rw [show (1024 : ℤ) = ((1024 : ℕ) : ℤ) from rfl, show (330 : ℤ) = ((330 : ℕ) : ℤ) from rfl,
        zpow_natCast, zpow_natCast]
      exact_mod_cast (by decide +kernel : (2 : ℕ) ^ 1024 < 10 ^ 330)
    have hlead : (10 : ℚ) ^ (330 : ℤ) ≤ D * 10 ^ E :=
      calc (10 : ℚ) ^ (330 : ℤ) ≤ 10 ^ ((((Nat.toDigits 10 D).length - 1 : ℕ) : ℤ) + E) :=
            zpow_le_zpow_right₀ (by norm_num) (by omega)
        _ = (10 : ℚ) ^ ((Nat.toDigits 10 D).length - 1) * 10 ^ E := by
            rw [zpow_add₀ (by norm_num), zpow_natCast]
        _ ≤ D * 10 ^ E := by
            gcongr
            exact_mod_cast hsize1
    exact absurd (lt_of_le_of_lt (hlead.trans hhigh) hbig) (lt_irrefl _)

/-- Every decimal in the rounding interval of a positive finite double reads as that double: its
value is far inside the range `ofDecimal` reads directly, and `nearest` rounds into it. -/
theorem ofDecimal_eq_of_rounds {x : Float} (hx : FiniteNonneg x) (hm : (split x).significand ≠ 0)
    {D : ℕ} {E : ℤ} (h : (split x).Rounds ((D : ℚ) * 10 ^ E)) : ofDecimal false D E = x := by
  obtain ⟨hm53, hq, hq'⟩ := hx.split_bounds
  have hv := h.pos (Nat.pos_of_ne_zero hm)
  have hD : D ≠ 0 := by
    rintro rfl
    simp at hv
  obtain ⟨hdown, hup⟩ := leadingPlace_bounds hD
    ((two_zpow_le_lowEnd (Nat.pos_of_ne_zero hm) hq).trans h.lowEnd_le)
    (h.le_highEnd.trans (highEnd_le_two_zpow hm53 hq'))
  unfold ofDecimal
  dsimp only
  rw [if_neg hD, if_neg (by omega), if_neg (by omega)]
  split
  · next hE =>
    refine nearest_eq_of_rounds hx hm one_pos ?_
    rw [Nat.pow_eq, Nat.cast_mul, Nat.cast_pow, Nat.cast_one, div_one, ← zpow_natCast,
      Int.toNat_of_nonneg hE]
    exact h
  · next hE =>
    refine nearest_eq_of_rounds hx hm (by simp [Nat.pow_eq]) ?_
    rw [Nat.pow_eq, Nat.cast_pow, ← zpow_natCast, Int.toNat_of_nonneg (by omega), div_eq_mul_inv,
      ← zpow_neg, neg_neg]
    exact h

/-! ## The written text -/

/-- The positional text of a positive decimal reads as a decimal of the same value: its digits
with trailing zeros, with a point among them, or after `0.` and leading zeros. -/
theorem readFloat_render_digits {d : Digits} (hd : 0 < d.digits) :
    ∃ D E, readFloat (d.render Style.plain) = some (ofDecimal false D E) ∧
      (D : ℚ) * 10 ^ E = d.digits * 10 ^ d.exponent := by
  obtain ⟨n, e⟩ := d
  dsimp only at hd ⊢
  set L := Nat.toDigits 10 n with hL
  have hne : L ≠ [] := Nat.toDigits_ne_nil
  have hdig : ∀ c ∈ L, c.isDigit = true := fun c hc => isDigit_of_mem_toDigits hc
  have hrep : ∀ k, ∀ c ∈ List.replicate k '0', c.isDigit = true := fun k c hc => by
    rw [List.eq_of_mem_replicate hc]
    rfl
  have htext : (digitText n).toList = L := by simp [digitText, hL]
  have hlen : (digitText n).length = L.length := by rw [← String.length_toList, htext]
  have hvalue : digitsValue L = n := by rw [hL, digitsValue_toDigits]
  unfold Digits.render
  simp only [Style.plain, hlen]
  split_ifs with he hp
  · -- a whole number: the digits, then the zeros the exponent asks for
    have hs : digitText n ++ zeros e.toNat ++ "" =
        String.ofList ((L ++ List.replicate e.toNat '0') ++ []) := by
      simp [← String.toList_inj, htext, zeros]
    have hall : ∀ c ∈ L ++ List.replicate e.toNat '0', c.isDigit = true := fun c hc =>
      (List.mem_append.1 hc).elim (hdig c) (hrep _ c)
    have hread := Duration.readFloat_digits (by simp [hne]) hall (.inl rfl)
    refine ⟨_, _, by rw [hs, hread], ?_⟩
    simp only [List.drop_nil, List.append_nil, List.length_nil, Nat.cast_zero, neg_zero,
      zpow_zero, mul_one, digitsValue_append, digitsValue_replicate_zero, add_zero, hvalue,
      List.length_replicate]
    push_cast
    rw [← zpow_natCast, Int.toNat_of_nonneg he]
  · -- the point falls among the digits
    set p := ((L.length : ℤ) + e).toNat with hpdef
    have hs : String.ofList ((digitText n).toList.take p) ++ "." ++
          String.ofList ((digitText n).toList.drop p) =
        String.ofList (L.take p ++ '.' :: L.drop p) := by
      simp [← String.toList_inj, htext]
    have hhead : L.take p ≠ [] := List.ne_nil_of_length_pos (by simp; omega)
    have hfrac : '.' :: L.drop p = [] ∨
        ∃ fs, '.' :: L.drop p = '.' :: fs ∧ ∀ c ∈ fs, c.isDigit = true :=
      .inr ⟨_, rfl, fun c hc => hdig c (List.mem_of_mem_drop hc)⟩
    have hread := Duration.readFloat_digits hhead (fun c hc => hdig c (List.mem_of_mem_take hc))
      hfrac
    refine ⟨_, _, by rw [hs, hread], ?_⟩
    simp only [List.drop_succ_cons, List.drop_zero, List.take_append_drop, hvalue,
      List.length_drop]
    rw [show -(((L.length - p : ℕ)) : ℤ) = e by omega]
  · -- the point comes first: `0.`, then zeros, then the digits
    set z := (-((L.length : ℤ) + e)).toNat with hzdef
    have hs : "0." ++ zeros z ++ digitText n =
        String.ofList (['0'] ++ '.' :: (List.replicate z '0' ++ L)) := by
      simp [← String.toList_inj, htext, zeros]
    have hfrac : '.' :: (List.replicate z '0' ++ L) = [] ∨ ∃ fs,
        '.' :: (List.replicate z '0' ++ L) = '.' :: fs ∧ ∀ c ∈ fs, c.isDigit = true :=
      .inr ⟨_, rfl, fun c hc => (List.mem_append.1 hc).elim (hrep _ c) (hdig c)⟩
    have hread := Duration.readFloat_digits (show ['0'] ≠ [] by simp) (by simp) hfrac
    refine ⟨_, _, by rw [hs, hread], ?_⟩
    simp only [List.drop_succ_cons, List.drop_zero, digitsValue_append, List.length_append,
      List.length_replicate, digitsValue_replicate_zero, hvalue]
    have hzero : digitsValue ['0'] = 0 := rfl
    rw [hzero, zero_mul, zero_mul, zero_add, zero_add,
      show -(((z + L.length : ℕ)) : ℤ) = e by omega]

theorem mem_render_plain {d : Digits} {c : Char} (h : c ∈ (d.render Style.plain).toList) :
    c.isDigit = true ∨ c = '.' := by
  have hdigit : ∀ c ∈ (digitText d.digits).toList, c.isDigit = true := fun c hc =>
    isDigit_of_mem_toDigits (by simpa [digitText] using hc)
  have hzeros : ∀ k, ∀ c ∈ (zeros k).toList, c.isDigit = true := fun k c hc => by
    have hc0 : c = '0' := List.eq_of_mem_replicate (by simpa [zeros] using hc)
    rw [hc0]
    rfl
  unfold Digits.render at h
  simp only [Style.plain] at h
  split_ifs at h
  · simp only [String.toList_append, List.mem_append] at h
    rcases h with (h | h) | h
    · exact .inl (hdigit c h)
    · exact .inl (hzeros _ c h)
    · simp at h
  · simp only [String.toList_append, String.toList_ofList, List.mem_append] at h
    rcases h with (h | h) | h
    · exact .inl (hdigit c (List.mem_of_mem_take h))
    · exact .inr (by simpa using h)
    · exact .inl (hdigit c (List.mem_of_mem_drop h))
  · simp only [String.toList_append, List.mem_append] at h
    rcases h with (h | h) | h
    · have hc : c = '0' ∨ c = '.' := by simpa using h
      rcases hc with rfl | rfl
      · exact .inl rfl
      · exact .inr rfl
    · exact .inl (hzeros _ c h)
    · exact .inl (hdigit c h)

/-! ## Doubles written and read -/

theorem Binary.FiniteNonneg.negative_eq_false {x : Float} (hx : FiniteNonneg x) :
    (split x).negative = false := by
  rw [hx.split_eq]
  split <;> rfl

theorem render_plain_of_finiteNonneg {x : Float} (hx : FiniteNonneg x) :
    render Style.plain x = (shortest x).render Style.plain := by
  rw [render, hx.negative_eq_false]
  exact String.empty_append

/-- A finite double without sign is written in digits and a point only. -/
theorem mem_render_plain_of_finiteNonneg {x : Float} (hx : FiniteNonneg x) {c : Char}
    (h : c ∈ (render Style.plain x).toList) : c.isDigit = true ∨ c = '.' := by
  rw [render_plain_of_finiteNonneg hx] at h
  exact mem_render_plain h

/-- The shortest text written for a finite double without sign reads back as that double. -/
theorem readFloat_render_plain {x : Float} (hx : FiniteNonneg x) :
    readFloat (render Style.plain x) = some x := by
  rw [render_plain_of_finiteNonneg hx, shortest]
  split
  · -- zero is written `0`, read as the positive zero, which is what `x` is
    next h0 =>
    have hfields : fieldOf x = 0 ∧ fracOf x = 0 := by
      rw [hx.split_eq] at h0
      split at h0
      · exact ⟨by assumption, h0⟩
      · simp at h0
    have hx0 : pack false 0 0 = x :=
      pack_eq_of_toBits (by norm_num) (by norm_num) (by omega)
        (by rw [hx.bits, hfields.1, hfields.2])
    have htext : (⟨0, 0⟩ : Digits).render Style.plain = String.ofList (['0'] ++ []) := by
      decide
    have hread := Duration.readFloat_digits (show ['0'] ≠ [] by simp) (by simp)
      (show ([] : List Char) = [] ∨ _ from .inl rfl)
    rw [htext, hread, ← hx0]
    rfl
  · next hm =>
    obtain ⟨hm53, hq, hq'⟩ := hx.split_bounds
    have hr := shortestOf_rounds (Nat.pos_of_ne_zero hm) hm53 hq hq'
    have hd : 0 < (shortestOf (split x).significand (split x).exponent
        (split x).lowerGapHalved).digits := by
      have hv := hr.pos (Nat.pos_of_ne_zero hm)
      by_contra h0
      rw [Nat.eq_zero_of_not_pos h0, Nat.cast_zero, zero_mul] at hv
      exact lt_irrefl _ hv
    obtain ⟨D, E, hread, hval⟩ := readFloat_render_digits hd
    have hrD : (split x).Rounds ((D : ℚ) * 10 ^ E) := by
      rw [hval]
      exact hr
    rw [hread, ofDecimal_eq_of_rounds hx hm hrD]

end ClipSearch.Decimal
