import ClipSearch.Proofs.ShortestDigits
import ClipSearch.Proofs.DateText
import ClipSearch.Proofs.QueryLaws
/-!
# Durations written as seconds

A count of milliseconds is written into a query as its seconds: the nearest double to the
count, divided by `1000.0`, in its shortest positional digits (`Duration.secondsText`). The
text reads back as that double (`readBound_secondsText`), the very double a clip's duration
is compared as. Below `2^43` seconds, about 278,000 years, the double of a count is within
`2^-11` of its exact seconds, closer than half a millisecond, so the doubles of two counts
compare as the counts do (`seconds_le_seconds_iff`); from `2^43` seconds on, neighbouring
counts can share a double. A range written from two counts holds a value exactly when it
lies within their seconds (`holds_ofText_secondsText`), so the seconds of a count below the limit
exactly when the count lies between them (`seconds_bounds_iff`).
-/
namespace ClipSearch.Duration

open ClipSearch.Decimal ClipSearch.Decimal.Binary ClipSearch.Text Float.Model

/-- The seconds of a count of milliseconds: the nearest double to the count, over `1000.0`. -/
def seconds (ms : ℕ) : Float := ofDecimal false ms 0 / 1000.0

theorem secondsText_eq (ms : ℕ) : secondsText ms = render Style.plain (seconds ms) := rfl

theorem durationSecs_eq (c : ClipSearch.Catalog.Clip) : c.durationSecs = seconds c.durationMs :=
  rfl

/-- Counts below `2^43` seconds, where seconds keep counts apart. -/
def exactLimit : ℕ := 1000 * 2 ^ 43

/-! ## The double of the seconds -/

/-- The seconds of a 64-bit count are its nearest double `a`, divided by a thousand and
rounded. -/
theorem seconds_roundedOf {ms : ℕ} (h : ms < 2 ^ 64) :
    ∃ a u : UnpackedFloat, RoundedOf a ms ∧ RoundedOf u (value a / 1000) ∧ Stored u ∧
      seconds ms = toDouble u := by
  have hms : (ms : ℚ) < 2 ^ (64 : ℤ) := by exact_mod_cast h
  obtain ⟨a, ha, ha_st, hnear⟩ := @nearest_roundedOf ms 1 one_pos (by
    rw [Nat.cast_one, div_one]
    exact lt_two_zpow_1023 (by norm_num) hms)
  rw [Nat.cast_one, div_one] at ha
  obtain ⟨d, hd, hd_st, hd_val⟩ := exists_toDouble_1000
  have hq : value a = 0 ∨ (2 : ℚ) ^ (-1020 : ℤ) ≤ value a / value d := by
    rcases Nat.eq_zero_or_pos ms with rfl | hpos
    · exact .inl (by simpa using ha.value_eq_nat (by norm_num))
    · have h1 : 1 ≤ value a := by
        simpa using ha.two_zpow_le_value (k := 0) (by norm_num) (by
          rw [zpow_zero]
          exact Nat.one_le_cast.2 hpos)
      have hsmall : (2 : ℚ) ^ (-1020 : ℤ) ≤ 1 / 1000 :=
        calc (2 : ℚ) ^ (-1020 : ℤ) ≤ 2 ^ (-10 : ℤ) := zpow_le_zpow_right₀ (by norm_num) (by norm_num)
          _ ≤ 1 / 1000 := by norm_num
      rw [hd_val]
      exact .inr (hsmall.trans (by gcongr))
  have hu := div_stored ha_st hd_st (by rw [hd_val]; norm_num) hq
  rw [hd_val] at hu
  have hbound : value a / 1000 < 2 ^ (1023 : ℤ) := by
    have hle := ha.value_le_two_zpow (k := 64) (by norm_num) hms.le
    have hpos : (0 : ℚ) < 2 ^ (64 : ℤ) := by positivity
    exact lt_two_zpow_1023 (k := 64) (by norm_num) (by linarith)
  refine ⟨a, _, ha, hu, hu.stored hbound, ?_⟩
  rw [seconds, ofDecimal_count h, hnear, hd, toDouble_div ha_st hd_st]

/-- A count kept at exponent `E` and rounding there to `k` units reads as the double of `k`
units of `2^E`. -/
theorem ofDecimal_count_eq_ofRounded {n : ℕ} (hn : n < 2 ^ 64) {E : ℤ} {k : ℕ}
    (hE : StoredAt n E) (hk : RoundsTo k (n / 2 ^ E)) : ofDecimal false n 0 = toDouble (ofRounded k E) := by
  obtain ⟨u, hu, -, hnear⟩ := @nearest_roundedOf n 1 one_pos (by
    rw [Nat.cast_one, div_one]
    exact lt_two_zpow_1023 (k := 64) (by norm_num) (by exact_mod_cast hn))
  rw [Nat.cast_one, div_one] at hu
  rw [ofDecimal_count hn, hnear, hu.eq_ofRounded hE hk]

/-- Below the limit the count is exact, and its thousandth is rounded within `2^-11`. -/
theorem value_sub_seconds_le {n : ℕ} (hn : n < exactLimit) {a u : UnpackedFloat}
    (ha : RoundedOf a n) (hu : RoundedOf u (value a / 1000)) :
    |value u - n / 1000| ≤ 2 ^ (-11 : ℤ) := by
  have hn53 : n < 2 ^ 53 := lt_of_lt_of_le hn (by decide)
  rw [ha.value_eq_nat hn53] at hu
  have hv : (n : ℚ) / 1000 < 2 ^ (43 : ℤ) := by
    have : (n : ℚ) < 1000 * 2 ^ 43 := by exact_mod_cast hn
    rw [div_lt_iff₀ (by norm_num)]
    norm_num at this ⊢
    linarith
  simpa using hu.abs_sub_le (K := 43) (by norm_num) hv

/-- From the limit on the count rounds to at least `1000 * 2^43`, its thousandth to at least
`2^43`. -/
theorem two_pow_le_value_seconds {n : ℕ} (hn : exactLimit ≤ n) {a u : UnpackedFloat}
    (ha : RoundedOf a n) (hu : RoundedOf u (value a / 1000)) :
    2 ^ (43 : ℤ) ≤ value u := by
  have hlimit : (exactLimit : ℚ) = 1000 * 2 ^ (43 : ℤ) := by norm_num [exactLimit]
  -- the limit is below `2^53`: a count under `2^53` is exact, one above rounds to at least it
  have ha' : (exactLimit : ℚ) ≤ value a := by
    by_cases h53 : n < 2 ^ 53
    · rw [ha.value_eq_nat h53]
      exact_mod_cast hn
    · have h2 := ha.two_zpow_le_value (k := 53) (by norm_num) (by
        exact_mod_cast not_lt.1 h53)
      exact le_trans (by rw [hlimit]; norm_num) h2
  refine hu.two_zpow_le_value (by norm_num) ?_
  rw [le_div_iff₀ (by norm_num)]
  linarith

/-- The seconds of a 64-bit count as a stored double: within `2^-11` of the exact seconds below
the limit, and at least `2^43` from it on. -/
theorem seconds_stored {n : ℕ} (h : n < 2 ^ 64) :
    ∃ u, Stored u ∧ seconds n = toDouble u ∧
      (n < exactLimit → |value u - n / 1000| ≤ 2 ^ (-11 : ℤ)) ∧
      (exactLimit ≤ n → 2 ^ (43 : ℤ) ≤ value u) := by
  obtain ⟨a, u, ha, hu, hst, heq⟩ := seconds_roundedOf h
  exact ⟨u, hst, heq, fun hn => value_sub_seconds_le hn ha hu,
    fun hn => two_pow_le_value_seconds hn ha hu⟩

/-- Doubles within `2^-11` of the seconds of a smaller count below the limit, and of a larger
count below the limit or at least `2^43` past it, keep the order: counts a millisecond apart
are a thousandth apart. -/
theorem lt_of_near_seconds {a b : ℕ} {x y : ℚ} (hab : a < b) (ha : a < exactLimit)
    (hx : |x - a / 1000| ≤ 2 ^ (-11 : ℤ)) (hy : b < exactLimit → |y - b / 1000| ≤ 2 ^ (-11 : ℤ))
    (hy' : exactLimit ≤ b → 2 ^ (43 : ℤ) ≤ y) : x < y := by
  have h11 : (2 : ℚ) ^ (-11 : ℤ) = 1 / 2048 := by norm_num
  rw [h11] at hx hy
  have hx' := abs_le.1 hx
  by_cases hb : b < exactLimit
  · have hy'' := abs_le.1 (hy hb)
    have hgap : (a : ℚ) + 1 ≤ b := by exact_mod_cast hab
    linarith [hx'.2, hy''.1]
  · have hlarge := hy' (not_lt.1 hb)
    have ha1 : (a : ℚ) + 1 ≤ 8796093022208000 := by
      have : a + 1 ≤ 8796093022208000 := ha
      exact_mod_cast this
    have h43 : (2 : ℚ) ^ (43 : ℤ) = 8796093022208 := by norm_num
    linarith [hx'.2]

/-- The seconds of two 64-bit counts, one of them below the limit, compare as the counts do. -/
theorem seconds_le_seconds_iff {a b : ℕ} (ha : a < 2 ^ 64) (hb : b < 2 ^ 64)
    (hlim : a < exactLimit ∨ b < exactLimit) : seconds a ≤ seconds b ↔ a ≤ b := by
  obtain ⟨u, hu, hsu, hnu, hlu⟩ := seconds_stored ha
  obtain ⟨v, hv, hsv, hnv, hlv⟩ := seconds_stored hb
  rw [hsu, hsv, toDouble_le hu hv, le_iff_value_le hu hv]
  constructor
  · intro hle
    by_contra hba'
    have hba := not_le.1 hba'
    have hb' : b < exactLimit := hlim.elim (fun h => hba.trans h) id
    exact absurd hle (not_le.2 (lt_of_near_seconds hba hb' (hnv hb') hnu hlu))
  · intro hab
    rcases hab.eq_or_lt with rfl | hlt
    · have huv : u = v := by rw [← toDouble_unpack hu, ← toDouble_unpack hv, ← hsu, ← hsv]
      rw [huv]
    · have ha' : a < exactLimit := hlim.elim id (fun h => hlt.trans h)
      exact (lt_of_near_seconds hlt ha' (hnu ha') hnv hlv).le

/-! ## Reading the seconds back -/

theorem finiteNonneg_seconds {n : ℕ} (h : n < 2 ^ 64) : FiniteNonneg (seconds n) :=
  finiteNonneg_div_thousand (finiteNonneg_ofDecimal_count h)

theorem mem_secondsText {n : ℕ} (h : n < 2 ^ 64) {c : Char} (hc : c ∈ (secondsText n).toList) :
    c.isDigit = true ∨ c = '.' :=
  mem_render_plain_of_finiteNonneg (finiteNonneg_seconds h) hc

theorem secondsText_ne_empty {n : ℕ} (h : n < 2 ^ 64) : secondsText n ≠ "" := by
  intro hempty
  have hread := readFloat_render_plain (finiteNonneg_seconds h)
  have hnone : readFloat "" = none := rfl
  rw [← secondsText_eq, hempty, hnone] at hread
  cases hread

/-- The written seconds of a count read back, as a bound of a range, as the seconds. -/
theorem readBound_secondsText {n : ℕ} (h : n < 2 ^ 64) :
    Query.readBound (secondsText n) = some (seconds n) := by
  have hblank : ∀ c ∈ (secondsText n).toList, isBlank c = false := fun c hc => by
    rcases mem_secondsText h hc with hd | rfl
    · exact Calendar.isBlank_of_isDigit hd
    · decide
  have htrim : trim (secondsText n) = secondsText n :=
    Calendar.trim_of_ends (fun c hc => hblank c (List.mem_of_mem_head? hc))
      (fun c hc => hblank c (List.mem_of_mem_getLast? hc))
  have hspecial : isSpecial (seconds n) = false :=
    Bool.eq_false_iff.2 fun hs => (finiteNonneg_seconds h).finite ((isSpecial_iff _).1 hs)
  have hne : (secondsText n).isEmpty = false := by
    simpa [String.isEmpty_iff] using secondsText_ne_empty h
  rw [Query.readBound, htrim, hne, secondsText_eq, readFloat_render_plain (finiteNonneg_seconds h)]
  simp [hspecial]

theorem dash_not_mem_secondsText {n : ℕ} (h : n < 2 ^ 64) : '-' ∉ (secondsText n).toList :=
  fun hc => by rcases mem_secondsText h hc with hd | hd <;> revert hd <;> decide

/-! ## Ranges of seconds -/

/-- A range with both sides read holds a value between its bounds; an open side bounds
nothing. -/
theorem holds_bounded (lo hi : Option Float) (x : Float) :
    (Query.NumericRange.bounded lo hi).holds (some x) =
      ((lo.all fun l => decide (l ≤ x)) && hi.all fun h => decide (x ≤ h)) := by
  cases lo <;> cases hi <;> rfl

/-! ### Optional bounds as text

A side of a range is an optional value written as text, or nothing. -/

section Optional

variable {α β : Type} {o : Option α} {g : α → String}

theorem mem_getD_map {ch : Char} (h : ch ∈ ((o.map g).getD "").toList) :
    ∃ a ∈ o, ch ∈ (g a).toList := by
  cases o with
  | none => simp at h
  | some a => exact ⟨a, rfl, h⟩

theorem getD_map_eq_empty (h : ∀ a ∈ o, g a ≠ "") : (o.map g).getD "" = "" ↔ o = none := by
  cases o with
  | none => simp
  | some a => simpa using h a rfl

/-- A reader that reads nothing from empty text and gives back each written value reads back
an optional value written as text. -/
theorem read_getD_map {read : String → Option β} {r : α → β} (h0 : read "" = none)
    (h : ∀ a ∈ o, read (g a) = some (r a)) : read ((o.map g).getD "") = o.map r := by
  cases o with
  | none => exact h0
  | some a => exact h a rfl

end Optional

theorem readBound_getD_secondsText {o : Option ℕ} (h : ∀ a ∈ o, a < 2 ^ 64) :
    Query.readBound ((o.map secondsText).getD "") = o.map seconds :=
  read_getD_map rfl fun a ha => readBound_secondsText (h a ha)

theorem dash_not_mem_getD_secondsText {o : Option ℕ} (h : ∀ a ∈ o, a < 2 ^ 64) :
    '-' ∉ ((o.map secondsText).getD "").toList := fun hc => by
  obtain ⟨a, ha, hc⟩ := mem_getD_map hc
  exact dash_not_mem_secondsText (h a ha) hc

/-- A range written from optional counts as seconds holds a value exactly when the value is
within the seconds of the bounds present. -/
theorem holds_ofText_secondsText {lo hi : Option ℕ} (hlo : ∀ a ∈ lo, a < 2 ^ 64)
    (hhi : ∀ b ∈ hi, b < 2 ^ 64) (x : Float) :
    (Query.NumericRange.ofText ((lo.map secondsText).getD "" ++ "-" ++ (hi.map secondsText).getD "")).holds
        (some x) = true ↔ (∀ a ∈ lo, seconds a ≤ x) ∧ (∀ b ∈ hi, x ≤ seconds b) := by
  have hsplit : splitFirst '-' ((lo.map secondsText).getD "" ++ "-" ++ (hi.map secondsText).getD "") =
      some ((lo.map secondsText).getD "", (hi.map secondsText).getD "") :=
    Query.splitFirst_append (dash_not_mem_getD_secondsText hlo)
  rw [Query.NumericRange.ofText, hsplit]
  simp only [readBound_getD_secondsText hlo, readBound_getD_secondsText hhi, holds_bounded,
    Bool.and_eq_true, Option.all_eq_true, decide_eq_true_eq]
  apply and_congr <;> simp

/-- The seconds of a count below the limit lie within the seconds of 64-bit bounds exactly when
the count lies within the bounds. -/
theorem seconds_bounds_iff {lo hi : Option ℕ} (hlo : ∀ a ∈ lo, a < 2 ^ 64)
    (hhi : ∀ b ∈ hi, b < 2 ^ 64) {n : ℕ} (hn : n < exactLimit) :
    ((∀ a ∈ lo, seconds a ≤ seconds n) ∧ (∀ b ∈ hi, seconds n ≤ seconds b)) ↔
      (∀ a ∈ lo, a ≤ n) ∧ (∀ b ∈ hi, n ≤ b) := by
  have hn64 : n < 2 ^ 64 := lt_of_lt_of_le hn (by decide)
  exact and_congr (forall₂_congr fun a ha => seconds_le_seconds_iff (hlo a ha) hn64 (.inr hn))
    (forall₂_congr fun b hb => seconds_le_seconds_iff hn64 (hhi b hb) (.inl hn))

/-- Seconds, unlike doubles in general, are at most themselves. -/
theorem seconds_le_self {n : ℕ} (h : n < 2 ^ 64) : seconds n ≤ seconds n := by
  obtain ⟨u, hu, hsu, -, -⟩ := seconds_stored h
  rw [hsu, toDouble_le hu hu, le_iff_value_le hu hu]

end ClipSearch.Duration
