import ClipSearch.Proofs.DurationValues
import ClipSearch.Proofs.DateText
import ClipSearch.Proofs.CatalogFiles
/-!
# Durations as typed

A duration is blank, a bare count of days, `[days.]hours:minutes:seconds[.fraction]`, or
`minutes:seconds[.fraction]`. Texts are built here from their runs of digits (`secondsChars`,
`daysChars`) and each form is read whole: a bare count of days as its milliseconds or nothing
past the largest 64-bit count (`read_dayCount`), and a time span likewise, its fraction cut
after three digits (`read_span_exact_or_refused`). `minutes:seconds` goes through a double: below sixty minutes
it reads as the nearest whole millisecond to a value within `2^-31` of the exact one
(`read_minutesSeconds`), and past the largest count it is held there
(`read_minutesSeconds_past_count`).

The two forms of a clock part exactly where the fraction's digits after the third make half a
millisecond: below that `minutes:seconds` reads as `00:minutes:seconds`
(`read_minutesSeconds_eq_read_clock`), above it one millisecond more. No reading is larger than
the largest 64-bit count (`read_le`).
-/
namespace ClipSearch.Duration

open ClipSearch.Decimal ClipSearch.Decimal.Binary ClipSearch.Text Float.Model Float.Model.UnpackedFloat

/-! ## Text with colons -/

section Colons

variable {m r : List Char}

/-- Text that starts and ends with a digit is its own trim. -/
theorem trim_of_digit_ends {cs : List Char} (hhead : ∀ c ∈ cs.head?, c.isDigit = true)
    (hlast : ∀ c ∈ cs.getLast?, c.isDigit = true) : trim (String.ofList cs) = String.ofList cs :=
  Calendar.trim_of_ends (by simpa using fun c hc => Calendar.isBlank_of_isDigit (hhead c hc))
    (by simpa using fun c hc => Calendar.isBlank_of_isDigit (hlast c hc))

theorem trim_of_digits {cs : List Char} (hd : ∀ c ∈ cs, c.isDigit = true) :
    trim (String.ofList cs) = String.ofList cs :=
  trim_of_digit_ends (fun c hc => hd c (List.mem_of_mem_head? hc))
    (fun c hc => hd c (List.mem_of_mem_getLast? hc))

/-- With a colon in it, and no blank at either end, the text before the first colon and the rest
are read as minutes and seconds when the rest has no colon, falling back to a time span; with
a second colon it is a time span. -/
theorem read_colon (hm : ':' ∉ m)
    (htrim : trim (String.ofList (m ++ ':' :: r)) = String.ofList (m ++ ':' :: r)) :
    read (String.ofList (m ++ ':' :: r)) =
      if ':' ∈ r then readSpan (String.ofList (m ++ ':' :: r))
      else (readMinutesSeconds (String.ofList m) (String.ofList r)).orElse
        fun _ => readSpan (String.ofList (m ++ ':' :: r)) := by
  have hne : ∀ c ∈ m, (c != ':') = true := fun c hc => by
    rw [bne_iff_ne]
    rintro rfl
    exact hm hc
  have htake : (m ++ ':' :: r).takeWhile (· != ':') = m := by
    rw [List.takeWhile_append_of_pos hne]
    simp
  have hdrop : (m ++ ':' :: r).dropWhile (· != ':') = ':' :: r := by
    rw [List.dropWhile_append_of_pos hne]
    simp
  unfold read
  rw [htrim]
  simp only [String.toList_ofList, htake, hdrop, List.drop_succ_cons, List.drop_zero,
    String.isEmpty_iff, String.ofList_eq_empty_iff, List.append_eq_nil_iff, reduceCtorEq,
    and_false, if_false, List.contains_iff_mem, List.mem_append, List.mem_cons, true_or, or_true,
    if_true]

theorem readCount_of_colon {cs : List Char} (h : ':' ∈ cs) : readCount (String.ofList cs) = none := by
  -- the colon is not a digit, whether or not a plus sign is dropped in front
  have hbody : ∀ body : List Char, ':' ∈ body → (body.isEmpty || !body.all Char.isDigit) = true :=
    fun body hmem => by
      simp only [Bool.or_eq_true, Bool.not_eq_true']
      right
      rw [List.all_eq_false]
      exact ⟨':', hmem, by decide⟩
  unfold readCount
  simp only [String.toList_ofList]
  split
  · next r => exact if_pos (hbody r (by simpa using h))
  · exact if_pos (hbody cs h)

theorem oneByte_colon : Catalog.OneByte ":" ':' := ⟨rfl, rfl, rfl, by decide, by decide⟩

/-- Three pieces without colons, joined by colons, split back into the three. -/
theorem splitOn_colon_three {a b c : List Char} (ha : ':' ∉ a) (hb : ':' ∉ b) (hc : ':' ∉ c) :
    (String.ofList (a ++ ':' :: b ++ ':' :: c)).splitOn ":" =
      [String.ofList a, String.ofList b, String.ofList c] := by
  have hjoin : a ++ ':' :: b ++ ':' :: c = [':'].intercalate [a, b, c] := by simp
  rw [Catalog.splitOn_oneByte oneByte_colon, String.toList_ofList, hjoin,
    List.splitOn_intercalate ':' (by simp [ha, hb, hc]) (by simp)]
  rfl

theorem splitOn_colon_of_not_mem {cs : List Char} (h : ':' ∉ cs) :
    (String.ofList cs).splitOn ":" = [String.ofList cs] := by
  have hne : ∀ c ∈ cs, (c == ':') = false := fun c hc => beq_false_of_ne fun heq => h (heq ▸ hc)
  rw [Catalog.splitOn_oneByte oneByte_colon, String.toList_ofList, List.splitOn,
    List.splitOnP_eq_singleton hne]
  rfl

end Colons

/-! ## Time spans -/

/-- Whole seconds as typed, then a point and the fraction when there is one. -/
def secondsChars (s f : List Char) : List Char := if f = [] then s else s ++ '.' :: f

/-- Days as typed before the hours, then a point; nothing for no days. -/
def daysChars (d : List Char) : List Char := if d = [] then [] else d ++ ['.']

section Spans

variable {h m s f : List Char}

theorem not_mem_of_digits {c : Char} (hc : c.isDigit = false) {ds : List Char}
    (hd : ∀ x ∈ ds, x.isDigit = true) : c ∉ ds := fun hmem => by
  rw [hd c hmem] at hc
  exact Bool.noConfusion hc

theorem colon_not_mem_secondsChars (hsd : ∀ c ∈ s, c.isDigit = true)
    (hfd : ∀ c ∈ f, c.isDigit = true) : ':' ∉ secondsChars s f := by
  have hcolon : (':' : Char).isDigit = false := by decide
  unfold secondsChars
  split
  · exact not_mem_of_digits hcolon hsd
  · simp [not_mem_of_digits hcolon hsd, not_mem_of_digits hcolon hfd]

theorem splitFirstDot_of_not_mem {cs : List Char} (h : '.' ∉ cs) :
    readSpan.splitFirstDot (String.ofList cs) = none := by
  simp [readSpan.splitFirstDot, h]

/-- The seconds split at their point into whole seconds and fraction, an empty fraction when
there is no point. -/
theorem splitFirstDot_secondsChars (hs : '.' ∉ s) :
    (readSpan.splitFirstDot (String.ofList (secondsChars s f))).getD
      (String.ofList (secondsChars s f), "") = (String.ofList s, String.ofList f) := by
  unfold secondsChars
  split
  · next hf =>
    subst hf
    rw [splitFirstDot_of_not_mem hs]
    rfl
  · have hne : ∀ c ∈ s, (c != '.') = true := fun c hc => by
      rw [bne_iff_ne]
      rintro rfl
      exact hs hc
    simp [readSpan.splitFirstDot, List.takeWhile_append_of_pos hne,
      List.dropWhile_append_of_pos hne]

theorem colon_not_mem_daysChars {d : List Char} (hdd : ∀ c ∈ d, c.isDigit = true)
    (hhd : ∀ c ∈ h, c.isDigit = true) : ':' ∉ daysChars d ++ h := by
  have hcolon : (':' : Char).isDigit = false := by decide
  unfold daysChars
  split <;> simp [not_mem_of_digits hcolon hdd, not_mem_of_digits hcolon hhd]

/-- The days split from the hours at their point; no point when there are no days. -/
theorem splitFirstDot_daysChars {d : List Char} (hdd : ∀ c ∈ d, c.isDigit = true)
    (hhd : ∀ c ∈ h, c.isDigit = true) :
    readSpan.splitFirstDot (String.ofList (daysChars d ++ h)) =
      if d = [] then none else some (String.ofList d, String.ofList h) := by
  have hdot : ('.' : Char).isDigit = false := by decide
  unfold daysChars
  split
  · exact splitFirstDot_of_not_mem (not_mem_of_digits hdot hhd)
  · have hne : ∀ c ∈ d, (c != '.') = true := fun c hc => by
      rw [bne_iff_ne]
      rintro rfl
      exact not_mem_of_digits hdot hdd hc
    simp [readSpan.splitFirstDot, List.takeWhile_append_of_pos hne,
      List.dropWhile_append_of_pos hne]

/-- Hours within a day, minutes and seconds below sixty and a fraction below a second stay below
a day. -/
theorem clock_lt_msDay (hh24 : digitsValue h < 24) (hm60 : digitsValue m < 60)
    (hs60 : digitsValue s < 60) (hfd : ∀ c ∈ f, c.isDigit = true) :
    digitsValue h * msHour + digitsValue m * msMinute + digitsValue s * msSecond +
      digitsValue f * 1000 / 10 ^ f.length < msDay := by
  have hmilli : digitsValue f * 1000 / 10 ^ f.length < 1000 := by
    apply Nat.div_lt_of_lt_mul
    have := Json.Scan.digitsValue_lt hfd
    omega
  unfold msDay msHour msMinute msSecond
  omega

/-- `[days.]hours:minutes:seconds[.fraction]` in digits, hours within a day, reads as its
milliseconds, the fraction cut after its third digit, or as nothing past the largest 64-bit
count. -/
theorem readSpan_days {d : List Char} (hdd : ∀ c ∈ d, c.isDigit = true) (hh : h ≠ [])
    (hhd : ∀ c ∈ h, c.isDigit = true) (hh24 : digitsValue h < 24)
    (hm : m ≠ []) (hmd : ∀ c ∈ m, c.isDigit = true) (hm60 : digitsValue m < 60)
    (hs : s ≠ []) (hsd : ∀ c ∈ s, c.isDigit = true) (hs60 : digitsValue s < 60)
    (hfd : ∀ c ∈ f, c.isDigit = true) (hf7 : f.length ≤ 7) :
    readSpan (String.ofList (daysChars d ++ h ++ ':' :: m ++ ':' :: secondsChars s f)) =
      if digitsValue d * msDay + (digitsValue h * msHour + digitsValue m * msMinute +
          digitsValue s * msSecond + digitsValue f * 1000 / 10 ^ f.length) ≤ countLimit
      then some (digitsValue d * msDay + (digitsValue h * msHour + digitsValue m * msMinute +
          digitsValue s * msSecond + digitsValue f * 1000 / 10 ^ f.length))
      else none := by
  have hday := clock_lt_msDay hh24 hm60 hs60 hfd
  have hhv := readDigitsOnly_digits hh hhd (le_trans (Nat.le_of_lt hh24) (by decide))
  have hmv := readDigitsOnly_digits hm hmd (le_trans (Nat.le_of_lt hm60) (by decide))
  have hsv := readDigitsOnly_digits hs hsd (le_trans (Nat.le_of_lt hs60) (by decide))
  have hsec := @splitFirstDot_secondsChars s f (not_mem_of_digits (by decide) hsd)
  have hfrac := fractionMillis_digits hfd hf7
  unfold readSpan
  rw [readCount_of_colon (by simp),
    splitOn_colon_three (colon_not_mem_daysChars hdd hhd) (not_mem_of_digits (by decide) hmd)
      (colon_not_mem_secondsChars hsd hfd)]
  dsimp only
  rw [splitFirstDot_daysChars hdd hhd]
  by_cases hd : d = []
  · -- no days: the clock alone, within a day
    subst hd
    have hclock : digitsValue h * msHour + digitsValue m * msMinute + digitsValue s * msSecond +
        digitsValue f * 1000 / 10 ^ f.length ≤ countLimit := by
      have hlimit : msDay ≤ countLimit := by decide
      omega
    simp only [daysChars, if_true, List.nil_append, hhv, hmv, hsv, hsec, hfrac,
      Option.bind_eq_bind, Option.bind_some, hh24, hm60, hs60, decide_true, Bool.and_true]
    rw [show digitsValue ([] : List Char) = 0 from rfl]
    simp only [Nat.zero_mul, Nat.zero_add, Nat.zero_le, hclock, decide_true, Bool.and_self, if_true]
  · -- days: refused past the largest count, and then so is the whole
    rw [if_neg hd]
    simp only [hmv, hsv, hsec, hfrac, Option.bind_eq_bind, Option.bind_some, hm60, hs60,
      decide_true, Bool.and_true]
    rw [readDigitsOnly_eq hd hdd]
    by_cases hdv : digitsValue d ≤ countLimit
    · have hboth : (decide (digitsValue d * msDay ≤ countLimit) &&
          decide (digitsValue d * msDay + (digitsValue h * msHour + digitsValue m * msMinute +
            digitsValue s * msSecond + digitsValue f * 1000 / 10 ^ f.length) ≤ countLimit)) = true ↔
          digitsValue d * msDay + (digitsValue h * msHour + digitsValue m * msMinute +
            digitsValue s * msSecond + digitsValue f * 1000 / 10 ^ f.length) ≤ countLimit := by
        simp only [Bool.and_eq_true, decide_eq_true_eq, and_iff_right_iff_imp]
        exact le_trans (Nat.le_add_right _ _)
      rw [if_pos hdv]
      simp only [Option.map_some, Option.bind_some, hhv, hh24, decide_true, if_true]
      exact if_congr hboth rfl rfl
    · have hover : ¬ digitsValue d * msDay + (digitsValue h * msHour + digitsValue m * msMinute +
          digitsValue s * msSecond + digitsValue f * 1000 / 10 ^ f.length) ≤ countLimit :=
        fun hle => hdv (le_trans (Nat.le_mul_of_pos_right _ (by decide))
          (le_trans (Nat.le_add_right _ _) hle))
      rw [if_neg hdv, if_neg hover]
      rfl

end Spans

/-! ## Minutes and seconds as typed -/

section MinutesSeconds

variable {m s f : List Char}

theorem secondsChars_eq (s f : List Char) :
    secondsChars s f = s ++ (if f = [] then [] else '.' :: f) := by
  unfold secondsChars
  split <;> simp

theorem head_secondsChars (hs : s ≠ []) (hsd : ∀ c ∈ s, c.isDigit = true) :
    ∀ c ∈ (secondsChars s f).head?, c.isDigit = true := by
  intro c hc
  obtain ⟨d, t, rfl⟩ := List.exists_cons_of_ne_nil hs
  rw [secondsChars_eq, List.cons_append, List.head?_cons, Option.mem_def, Option.some.injEq] at hc
  exact hc ▸ hsd d List.mem_cons_self

theorem getLast_secondsChars (hsd : ∀ c ∈ s, c.isDigit = true) (hfd : ∀ c ∈ f, c.isDigit = true) : ∀ c ∈ (secondsChars s f).getLast?, c.isDigit = true := by
  intro c hc
  unfold secondsChars at hc
  split at hc
  · exact hsd c (List.mem_of_mem_getLast? hc)
  · next hf =>
    obtain ⟨g, t, rfl⟩ := List.exists_cons_of_ne_nil hf
    rw [List.getLast?_append_of_ne_nil _ (List.cons_ne_nil _ _), List.getLast?_cons_cons] at hc
    exact hfd c (List.mem_of_mem_getLast? hc)

theorem secondsChars_ne_nil (hs : s ≠ []) : secondsChars s f ≠ [] := by
  rw [secondsChars_eq]
  exact List.append_ne_nil_of_left_ne_nil hs _

/-- Minutes and seconds in digits read as the double `m * 60000.0 + q * 1000.0`, `q` the decimal of
the seconds; when that is a stored double, as the whole number nearest to its value, a half going
up, held at the largest 64-bit count. -/
theorem readMinutesSeconds_stored (hm : m ≠ []) (hmd : ∀ c ∈ m, c.isDigit = true) (hs : s ≠ [])
    (hsd : ∀ c ∈ s, c.isDigit = true) (hfd : ∀ c ∈ f, c.isDigit = true) {z : UnpackedFloat}
    (hz : Stored z)
    (hx : ofDecimal false (digitsValue m) 0 * 60000.0 +
      ofDecimal false (digitsValue (s ++ f)) (-(f.length : ℤ)) * 1000.0 = toDouble z) :
    readMinutesSeconds (String.ofList m) (String.ofList (secondsChars s f)) =
      some (min ⌊value z + 1 / 2⌋₊ countLimit) := by
  have hsecs_rest : (if f = [] then [] else '.' :: f).drop 1 = f := by split <;> simp_all
  have htrim_s : trim (String.ofList (secondsChars s f)) = String.ofList (secondsChars s f) :=
    trim_of_digit_ends (head_secondsChars hs hsd) (getLast_secondsChars hsd hfd)
  have hneg : ¬ toDouble z < 0.0 := by
    rw [show (0.0 : Float) = toDouble (.zero .positive) from rfl,
      toDouble_lt hz (show Stored (.zero .positive) from rfl), lt_zero hz]
    exact Bool.false_ne_true
  unfold readMinutesSeconds
  rw [trim_of_digits hmd, htrim_s, ← List.append_nil m, readFloat_digits hm hmd (Or.inl rfl),
    secondsChars_eq, readFloat_digits hs hsd (by split <;> simp_all), hsecs_rest]
  simp only [List.drop_nil, List.length_nil, List.append_nil, Nat.cast_zero, neg_zero,
    Option.bind_eq_bind, Option.bind_some]
  rw [hx, isSpecial_toDouble hz, decide_eq_false hneg, Bool.false_or, if_neg Bool.false_ne_true,
    roundToCount_toDouble hz]

/-- Minutes and seconds in digits, each below sixty, the seconds with at most seven digits of
fraction, read as the whole number nearest to a value within `2^-31` of their milliseconds, a
half going up. -/
theorem readMinutesSeconds_digits (hm : m ≠ []) (hmd : ∀ c ∈ m, c.isDigit = true)
    (hm60 : digitsValue m < 60) (hs : s ≠ []) (hsd : ∀ c ∈ s, c.isDigit = true)
    (hs60 : digitsValue s < 60) (hfd : ∀ c ∈ f, c.isDigit = true) (hf7 : f.length ≤ 7) :
    ∃ z : ℚ, |z - (digitsValue m * 60000 + (digitsValue (s ++ f) : ℚ) / 10 ^ f.length * 1000)| <
        2 ^ (-31 : ℤ) ∧
      readMinutesSeconds (String.ofList m) (String.ofList (secondsChars s f)) = some ⌊z + 1 / 2⌋₊ := by
  have hN : digitsValue (s ++ f) < 60 * 10 ^ f.length := by
    rw [digitsValue_append]
    have := Json.Scan.digitsValue_lt hfd
    have h59 : digitsValue s + 1 ≤ 60 := hs60
    calc digitsValue s * 10 ^ f.length + digitsValue f < (digitsValue s + 1) * 10 ^ f.length := by
          rw [Nat.add_mul, Nat.one_mul]
          omega
      _ ≤ 60 * 10 ^ f.length := Nat.mul_le_mul_right _ h59
  obtain ⟨u, hu_st, hu_err, hu⟩ := minutesSeconds_sum hm60 hN hf7
  refine ⟨value u, hu_err, ?_⟩
  have hbound : ⌊value u + 1 / 2⌋₊ ≤ countLimit := by
    have hE : (digitsValue m : ℚ) * 60000 + (digitsValue (s ++ f) : ℚ) / 10 ^ f.length * 1000 ≤
        4000000 := by
      have h1 : (digitsValue m : ℚ) ≤ 59 := by exact_mod_cast Nat.le_of_lt_succ hm60
      have h2 : (digitsValue (s ++ f) : ℚ) / 10 ^ f.length ≤ 60 := by
        rw [div_le_iff₀ (by positivity)]
        exact_mod_cast hN.le
      linarith
    have hu_le : value u + 1 / 2 ≤ ((4000001 : ℕ) : ℚ) := by
      have := (abs_lt.1 hu_err).2
      norm_num at this ⊢
      linarith
    calc ⌊value u + 1 / 2⌋₊ ≤ 4000001 := Nat.floor_le_of_le hu_le
      _ ≤ countLimit := by unfold countLimit; simp only [Nat.pow_eq]; omega
  rw [readMinutesSeconds_stored hm hmd hs hsd hfd hu_st hu, min_eq_left hbound]

theorem read_of_readMinutesSeconds (hm : m ≠ []) (hmd : ∀ c ∈ m, c.isDigit = true) (hs : s ≠ [])
    (hsd : ∀ c ∈ s, c.isDigit = true) (hfd : ∀ c ∈ f, c.isDigit = true) {v : ℕ}
    (hv : readMinutesSeconds (String.ofList m) (String.ofList (secondsChars s f)) = some v) :
    read (String.ofList (m ++ ':' :: secondsChars s f)) = some v := by
  have htrim : trim (String.ofList (m ++ ':' :: secondsChars s f)) =
      String.ofList (m ++ ':' :: secondsChars s f) := by
    apply trim_of_digit_ends
    · obtain ⟨d, t, rfl⟩ := List.exists_cons_of_ne_nil hm
      simpa using hmd d List.mem_cons_self
    · rw [List.getLast?_append_of_ne_nil _ (List.cons_ne_nil _ _),
        List.getLast?_cons_of_ne_nil (secondsChars_ne_nil hs)]
      exact getLast_secondsChars hsd hfd
  rw [read_colon (not_mem_of_digits (by decide) hmd) htrim,
    if_neg (colon_not_mem_secondsChars hsd hfd), hv]
  rfl

/-- `minutes:seconds[.fraction]` in digits reads as the whole number nearest to a value within
`2^-31` of its milliseconds, a half going up. -/
theorem read_minutesSeconds (hm : m ≠ []) (hmd : ∀ c ∈ m, c.isDigit = true)
    (hm60 : digitsValue m < 60) (hs : s ≠ []) (hsd : ∀ c ∈ s, c.isDigit = true)
    (hs60 : digitsValue s < 60) (hfd : ∀ c ∈ f, c.isDigit = true) (hf7 : f.length ≤ 7) :
    ∃ z : ℚ, |z - (digitsValue m * 60000 + (digitsValue (s ++ f) : ℚ) / 10 ^ f.length * 1000)| <
        2 ^ (-31 : ℤ) ∧
      read (String.ofList (m ++ ':' :: secondsChars s f)) = some ⌊z + 1 / 2⌋₊ := by
  obtain ⟨z, hz, hread⟩ := readMinutesSeconds_digits hm hmd hm60 hs hsd hs60 hfd hf7
  exact ⟨z, hz, read_of_readMinutesSeconds hm hmd hs hsd hfd hread⟩

/-- `minutes:seconds` in digits below `2^53`, the minutes past `2^64` milliseconds by `2^17` or
more, reads as the largest 64-bit count: the double is held there, not refused. -/
theorem read_minutesSeconds_past_count (hm : m ≠ []) (hmd : ∀ c ∈ m, c.isDigit = true)
    (hm53 : digitsValue m < 2 ^ 53) (hs : s ≠ []) (hsd : ∀ c ∈ s, c.isDigit = true)
    (hs53 : digitsValue s < 2 ^ 53) (hbig : 2 ^ 64 + 2 ^ 17 ≤ digitsValue m * 60000) :
    read (String.ofList (m ++ ':' :: s)) = some countLimit := by
  obtain ⟨z, hz_st, hz_big, hx⟩ := minutesSeconds_past_count hm53 hs53 hbig
  have hnil : ∀ c ∈ ([] : List Char), c.isDigit = true := List.forall_mem_nil _
  have hheld : countLimit ≤ ⌊value z + 1 / 2⌋₊ := by
    apply Nat.le_floor
    have hlim : countLimit ≤ 2 ^ 64 := by unfold countLimit; simp only [Nat.pow_eq]; omega
    have hlim' : (countLimit : ℚ) ≤ 2 ^ (64 : ℤ) := by exact_mod_cast hlim
    linarith
  have hread := read_of_readMinutesSeconds hm hmd hs hsd hnil
    (readMinutesSeconds_stored hm hmd hs hsd hnil hz_st (by simpa using hx))
  rwa [min_eq_right hheld, secondsChars, if_pos rfl] at hread

theorem head_daysChars {d h r : List Char} (hdd : ∀ c ∈ d, c.isDigit = true) (hh : h ≠ [])
    (hhd : ∀ c ∈ h, c.isDigit = true) : ∀ c ∈ (daysChars d ++ h ++ r).head?, c.isDigit = true := by
  intro c hc
  unfold daysChars at hc
  split at hc
  · obtain ⟨x, t, rfl⟩ := List.exists_cons_of_ne_nil hh
    simp only [List.nil_append, List.cons_append, List.head?_cons, Option.mem_def,
      Option.some.injEq] at hc
    exact hc ▸ hhd x List.mem_cons_self
  · next hd =>
    obtain ⟨x, t, rfl⟩ := List.exists_cons_of_ne_nil hd
    simp only [List.cons_append, List.head?_cons, Option.mem_def, Option.some.injEq] at hc
    exact hc ▸ hdd x List.mem_cons_self

/-- Days and hours, minutes, and seconds with their fraction, in digits and joined by colons, are
read as a time span: the text after the first colon has a second one. -/
theorem read_eq_readSpan {d h : List Char} (hdd : ∀ c ∈ d, c.isDigit = true) (hh : h ≠ [])
    (hhd : ∀ c ∈ h, c.isDigit = true) (hs : s ≠ []) (hsd : ∀ c ∈ s, c.isDigit = true)
    (hfd : ∀ c ∈ f, c.isDigit = true) :
    read (String.ofList (daysChars d ++ h ++ ':' :: m ++ ':' :: secondsChars s f)) =
      readSpan (String.ofList (daysChars d ++ h ++ ':' :: m ++ ':' :: secondsChars s f)) := by
  have htext : daysChars d ++ h ++ ':' :: m ++ ':' :: secondsChars s f =
      daysChars d ++ h ++ ':' :: (m ++ ':' :: secondsChars s f) := by
    simp
  have htrim : trim (String.ofList (daysChars d ++ h ++ ':' :: (m ++ ':' :: secondsChars s f))) =
      String.ofList (daysChars d ++ h ++ ':' :: (m ++ ':' :: secondsChars s f)) := by
    apply trim_of_digit_ends (head_daysChars hdd hh hhd)
    rw [← htext, List.getLast?_append_of_ne_nil _ (List.cons_ne_nil _ _),
      List.getLast?_cons_of_ne_nil (secondsChars_ne_nil hs)]
    exact getLast_secondsChars hsd hfd
  rw [htext, read_colon (colon_not_mem_daysChars hdd hhd) htrim, if_pos (by simp)]

/-- `hours:minutes:seconds[.fraction]` in digits, within a day, reads as its milliseconds, the
fraction cut after its third digit. -/
theorem read_clock {h : List Char} (hh : h ≠ []) (hhd : ∀ c ∈ h, c.isDigit = true)
    (hh24 : digitsValue h < 24) (hm : m ≠ []) (hmd : ∀ c ∈ m, c.isDigit = true)
    (hm60 : digitsValue m < 60) (hs : s ≠ []) (hsd : ∀ c ∈ s, c.isDigit = true)
    (hs60 : digitsValue s < 60) (hfd : ∀ c ∈ f, c.isDigit = true) (hf7 : f.length ≤ 7) :
    read (String.ofList (h ++ ':' :: m ++ ':' :: secondsChars s f)) =
      some (digitsValue h * msHour + digitsValue m * msMinute + digitsValue s * msSecond +
        digitsValue f * 1000 / 10 ^ f.length) := by
  have hnil : ∀ c ∈ ([] : List Char), c.isDigit = true := List.forall_mem_nil _
  have hday := clock_lt_msDay hh24 hm60 hs60 hfd
  have hlimit : msDay ≤ countLimit := by decide
  have hspan := readSpan_days hnil hh hhd hh24 hm hmd hm60 hs hsd hs60 hfd hf7
  rw [← read_eq_readSpan hnil hh hhd hs hsd hfd] at hspan
  rwa [show daysChars ([] : List Char) = [] from rfl, List.nil_append,
    show digitsValue ([] : List Char) = 0 from rfl, Nat.zero_mul, Nat.zero_add,
    if_pos (by omega)] at hspan

/-- A bare count of days in digits reads as its milliseconds, or as nothing past the largest
64-bit count. -/
theorem read_dayCount {ds : List Char} (hne : ds ≠ []) (hd : ∀ c ∈ ds, c.isDigit = true) :
    read (String.ofList ds) =
      if digitsValue ds * msDay ≤ countLimit then some (digitsValue ds * msDay) else none := by
  have hcolon : ':' ∉ ds := not_mem_of_digits (by decide) hd
  have hspan : readSpan (String.ofList ds) =
      if digitsValue ds * msDay ≤ countLimit then some (digitsValue ds * msDay) else none := by
    unfold readSpan
    rw [readCount_digits hne hd]
    by_cases hv : digitsValue ds ≤ countLimit
    · rw [if_pos hv]
    · -- too large for a count, and with no colon no clock either
      have hover : ¬ digitsValue ds * msDay ≤ countLimit :=
        fun hle => hv (le_trans (Nat.le_mul_of_pos_right _ (by decide)) hle)
      rw [if_neg hv, if_neg hover, splitOn_colon_of_not_mem hcolon]
  unfold read
  rw [trim_of_digits hd]
  simp only [String.toList_ofList, String.isEmpty_iff, String.ofList_eq_empty_iff, hne, if_false,
    List.contains_iff_mem, hcolon]
  exact hspan

end MinutesSeconds

/-! ## The two forms compared -/

section Compared

variable {m s f : List Char}

/-- What a fraction of a second holds below a millisecond is what its digits after the third say. -/
theorem digitsValue_mul_mod (hfd : ∀ c ∈ f, c.isDigit = true) :
    digitsValue f * 1000 % 10 ^ f.length = digitsValue (f.drop 3) * 1000 := by
  rcases Nat.lt_or_ge 3 f.length with hk | hk
  · have hsplit := digitsValue_append (f.take 3) (f.drop 3)
    have hrest : digitsValue (f.drop 3) < 10 ^ (f.drop 3).length :=
      Json.Scan.digitsValue_lt fun c hc => hfd c (List.mem_of_mem_drop hc)
    rw [List.take_append_drop] at hsplit
    rw [List.length_drop] at hsplit hrest
    have h10 : 10 ^ f.length = 10 ^ (f.length - 3) * 1000 := by
      rw [show 1000 = 10 ^ 3 from rfl, ← pow_add, Nat.sub_add_cancel hk.le]
    rw [hsplit, h10, Nat.add_mul, Nat.mul_assoc, Nat.mul_comm (digitsValue (List.take 3 f)), Nat.mul_add_mod,
      Nat.mod_eq_of_lt (Nat.mul_lt_mul_of_pos_right hrest (by norm_num))]
  · rw [List.drop_eq_nil_of_le hk, show digitsValue [] = 0 from rfl, Nat.zero_mul]
    have h1000 : 1000 = 10 ^ (3 - f.length) * 10 ^ f.length := by
      rw [← pow_add, Nat.sub_add_cancel hk]
      rfl
    rw [h1000, ← Nat.mul_assoc, Nat.mul_mod_left]

/-- Half a millisecond decides: a value within `2^-31` of `n + r / 10^k`, `r < 10^k` and `k` at
most seven, rounds, a half going up, to `n` when `2 * r < 10^k` and to `n + 1` when
`2 * r > 10^k`. -/
theorem floor_add_half_of_near {z : ℚ} {n r k : ℕ} (hk : k ≤ 7) (hr : r < 10 ^ k)
    (hz : |z - (n + r / 10 ^ k)| < 2 ^ (-31 : ℤ)) :
    (2 * r < 10 ^ k → ⌊z + 1 / 2⌋₊ = n) ∧ (10 ^ k < 2 * r → ⌊z + 1 / 2⌋₊ = n + 1) := by
  have h10 : (0 : ℚ) < 10 ^ k := by positivity
  have h10' : (10 : ℚ) ^ k ≤ 10 ^ 7 := pow_le_pow_right₀ (by norm_num) hk
  obtain ⟨hlo, hhi⟩ := abs_lt.1 hz
  have hr' : (r : ℚ) / 10 ^ k < 1 := by
    rw [div_lt_one h10]
    exact_mod_cast hr
  have hsmall : (2 : ℚ) ^ (-31 : ℤ) < 1 / (2 * 10 ^ 7) := by norm_num
  have hr0 : (0 : ℚ) ≤ r / 10 ^ k := by positivity
  have hn0 : (0 : ℚ) ≤ n := by positivity
  have hz0 : 0 ≤ z + 1 / 2 := by
    have : (1 : ℚ) / (2 * 10 ^ 7) < 1 / 2 := by norm_num
    linarith
  -- a whole step of `1 / 10^k` away from one half is at least `1 / (2 * 10^7)` away
  have hstep : (1 : ℚ) / (2 * 10 ^ 7) ≤ 1 / (2 * 10 ^ k) :=
    one_div_le_one_div_of_le (by positivity) (by linarith)
  constructor
  · intro hlt
    have hgap : (r : ℚ) / 10 ^ k ≤ 1 / 2 - 1 / (2 * 10 ^ k) := by
      have : (2 * r + 1 : ℚ) ≤ 10 ^ k := by exact_mod_cast hlt
      rw [div_le_iff₀ h10]
      field_simp
      linarith
    rw [Nat.floor_eq_iff hz0]
    have : (1 : ℚ) / (2 * 10 ^ 7) < 1 / 2 := by norm_num
    constructor <;> linarith
  · intro hgt
    have hgap : 1 / 2 + 1 / (2 * 10 ^ k) ≤ (r : ℚ) / 10 ^ k := by
      have : (10 ^ k + 1 : ℚ) ≤ 2 * r := by exact_mod_cast hgt
      rw [le_div_iff₀ h10]
      field_simp
      linarith
    rw [Nat.floor_eq_iff hz0]
    push_cast
    constructor <;> linarith

/-- In units of `10^-k` seconds, the part of a fraction below a millisecond compared with half a
millisecond: the same comparison of its digits after the third with half their unit. -/
theorem rest_compare (hfd : ∀ c ∈ f, c.isDigit = true) :
    (2 * (digitsValue f * 1000 % 10 ^ f.length) < 10 ^ f.length ↔
        2 * digitsValue (f.drop 3) < 10 ^ (f.length - 3)) ∧
      (10 ^ f.length < 2 * (digitsValue f * 1000 % 10 ^ f.length) ↔
        10 ^ (f.length - 3) < 2 * digitsValue (f.drop 3)) := by
  rw [digitsValue_mul_mod hfd]
  rcases Nat.lt_or_ge 3 f.length with hk | hk
  · have h10 : 10 ^ f.length = 10 ^ (f.length - 3) * 1000 := by
      rw [show 1000 = 10 ^ 3 from rfl, ← pow_add, Nat.sub_add_cancel hk.le]
    rw [h10, ← Nat.mul_assoc]
    exact ⟨Nat.mul_lt_mul_right (by norm_num), Nat.mul_lt_mul_right (by norm_num)⟩
  · -- no digit after the third: nothing below a millisecond
    rw [List.drop_eq_nil_of_le hk, show digitsValue [] = 0 from rfl, Nat.sub_eq_zero_of_le hk,
      pow_zero, Nat.zero_mul, Nat.mul_zero]
    exact ⟨iff_of_true (by positivity) one_pos, iff_of_false (Nat.not_lt_zero _) (Nat.not_lt_zero _)⟩

/-- `minutes:seconds[.fraction]` and `00:minutes:seconds[.fraction]`, in digits with minutes
and seconds below sixty and at most seven digits of fraction, read alike when the digits after
the third make less than half a millisecond, and the first one millisecond more when they make
more than half. -/
theorem read_minutesSeconds_clock (hm : m ≠ []) (hmd : ∀ c ∈ m, c.isDigit = true)
    (hm60 : digitsValue m < 60) (hs : s ≠ []) (hsd : ∀ c ∈ s, c.isDigit = true)
    (hs60 : digitsValue s < 60) (hfd : ∀ c ∈ f, c.isDigit = true) (hf7 : f.length ≤ 7) :
    (2 * digitsValue (f.drop 3) < 10 ^ (f.length - 3) →
      read (String.ofList (m ++ ':' :: secondsChars s f)) =
        read (String.ofList (['0', '0'] ++ ':' :: m ++ ':' :: secondsChars s f))) ∧
    (10 ^ (f.length - 3) < 2 * digitsValue (f.drop 3) →
      read (String.ofList (m ++ ':' :: secondsChars s f)) =
        (read (String.ofList (['0', '0'] ++ ':' :: m ++ ':' :: secondsChars s f))).map (· + 1)) := by
  obtain ⟨z, hz, htwo⟩ := read_minutesSeconds hm hmd hm60 hs hsd hs60 hfd hf7
  have hzeros : ∀ c ∈ ['0', '0'], c.isDigit = true := by
    intro c hc
    simp only [List.mem_cons, List.not_mem_nil, or_false, or_self] at hc
    subst hc
    rfl
  have hthree := @read_clock m s f ['0', '0'] (by simp) hzeros (by rw [show digitsValue ['0', '0'] = 0 from rfl]; norm_num)
    hm hmd hm60 hs hsd hs60 hfd hf7
  rw [show digitsValue ['0', '0'] = 0 from rfl, Nat.zero_mul, Nat.zero_add] at hthree
  set n := digitsValue m * msMinute + digitsValue s * msSecond + digitsValue f * 1000 / 10 ^ f.length
  set r := digitsValue f * 1000 % 10 ^ f.length
  have hexact : (digitsValue m : ℚ) * 60000 + (digitsValue (s ++ f) : ℚ) / 10 ^ f.length * 1000 =
      n + r / 10 ^ f.length := by
    have hdiv := Nat.div_add_mod (digitsValue f * 1000) (10 ^ f.length)
    have hq : ((digitsValue f * 1000 : ℕ) : ℚ) = 10 ^ f.length * ((digitsValue f * 1000 / 10 ^ f.length : ℕ) : ℚ) + r := by
      exact_mod_cast hdiv.symm
    rw [digitsValue_append]
    simp only [n, msMinute, msSecond]
    push_cast at hq ⊢
    field_simp
    linear_combination hq
  rw [hexact] at hz
  obtain ⟨hbelow, habove⟩ := floor_add_half_of_near hf7 (Nat.mod_lt _ (by positivity)) hz
  obtain ⟨hless, hmore⟩ := rest_compare hfd
  refine ⟨fun h => ?_, fun h => ?_⟩
  · rw [htwo, hthree, hbelow (hless.2 h)]
  · rw [htwo, hthree, habove (hmore.2 h)]
    rfl

end Compared

/-! ## Minutes and seconds against hours, minutes and seconds -/

def withFraction (s f : String) : String := if f = "" then s else s ++ "." ++ f

theorem toList_withFraction (s f : String) :
    (withFraction s f).toList = secondsChars s.toList f.toList := by
  unfold withFraction secondsChars
  by_cases hf : f = ""
  · simp [hf]
  · have hne : f.toList ≠ [] := by simpa using hf
    simp [hf, hne]

section Typed

variable {m s f : String}

theorem minutesSeconds_text :
    m ++ ":" ++ withFraction s f = String.ofList (m.toList ++ ':' :: secondsChars s.toList f.toList) := by
  rw [← String.toList_inj]
  simp [toList_withFraction]

theorem clock_text :
    "00:" ++ m ++ ":" ++ withFraction s f =
      String.ofList (['0', '0'] ++ ':' :: m.toList ++ ':' :: secondsChars s.toList f.toList) := by
  rw [← String.toList_inj]
  simp [toList_withFraction]

/-- `minutes:seconds[.fraction]` reads as `00:minutes:seconds[.fraction]` does, for minutes and
seconds in ASCII digits below sixty and a fraction of at most seven digits, whenever the digits
of the fraction after the third make less than half a millisecond. -/
theorem read_minutesSeconds_eq_read_clock
    (hm : m ≠ "") (hmd : ∀ c ∈ m.toList, c.isDigit = true) (hm60 : digitsValue m.toList < 60)
    (hs : s ≠ "") (hsd : ∀ c ∈ s.toList, c.isDigit = true) (hs60 : digitsValue s.toList < 60)
    (hfd : ∀ c ∈ f.toList, c.isDigit = true) (hf7 : f.length ≤ 7)
    (hhalf : 2 * digitsValue (f.toList.drop 3) < 10 ^ (f.length - 3)) :
    read (m ++ ":" ++ withFraction s f) = read ("00:" ++ m ++ ":" ++ withFraction s f) := by
  rw [← String.length_toList] at hf7 hhalf
  rw [minutesSeconds_text, clock_text]
  exact (read_minutesSeconds_clock (by simpa using hm) hmd hm60 (by simpa using hs) hsd hs60 hfd
    hf7).1 hhalf

/-- Ninety seconds and a quarter of a millisecond past 250 milliseconds read alike both ways. -/
theorem read_minutesSeconds_eq_read_clock_sample :
    2 * digitsValue (("2504" : String).toList.drop 3) < 10 ^ (("2504" : String).length - 3) ∧
      read ("1" ++ ":" ++ withFraction "30" "2504") =
        read ("00:" ++ "1" ++ ":" ++ withFraction "30" "2504") :=
  ⟨by decide, read_minutesSeconds_eq_read_clock (by decide) (List.all_eq_true.1 rfl) (by decide)
    (by decide) (List.all_eq_true.1 rfl) (by decide) (List.all_eq_true.1 rfl) (by decide)
    (by decide)⟩

/-- When the digits of the fraction after the third make more than half a millisecond,
`minutes:seconds.fraction` reads one millisecond more than `00:minutes:seconds.fraction`. -/
theorem read_minutesSeconds_eq_read_clock_succ
    (hm : m ≠ "") (hmd : ∀ c ∈ m.toList, c.isDigit = true) (hm60 : digitsValue m.toList < 60)
    (hs : s ≠ "") (hsd : ∀ c ∈ s.toList, c.isDigit = true) (hs60 : digitsValue s.toList < 60)
    (hfd : ∀ c ∈ f.toList, c.isDigit = true) (hf7 : f.length ≤ 7)
    (hmore : 10 ^ (f.length - 3) < 2 * digitsValue (f.toList.drop 3)) :
    read (m ++ ":" ++ withFraction s f) = (read ("00:" ++ m ++ ":" ++ withFraction s f)).map (· + 1) := by
  rw [← String.length_toList] at hf7 hmore
  rw [minutesSeconds_text, clock_text]
  exact (read_minutesSeconds_clock (by simpa using hm) hmd hm60 (by simpa using hs) hsd hs60 hfd
    hf7).2 hmore

end Typed

/-- A fraction of `.9999` seconds is rounded to a whole second by `minutes:seconds` and cut to 999
milliseconds by `hours:minutes:seconds`. -/
theorem read_fraction_rounds_up :
    read ("0" ++ ":" ++ withFraction "0" "9999") = some 1000 ∧
      read ("00:" ++ "0" ++ ":" ++ withFraction "0" "9999") = some 999 := by
  have hclock : read ("00:" ++ "0" ++ ":" ++ withFraction "0" "9999") = some 999 := by
    have hzeros : ∀ c ∈ ['0', '0'], c.isDigit = true := List.all_eq_true.1 rfl
    rw [clock_text, read_clock (by simp) hzeros (by decide) (by simp) (List.all_eq_true.1 rfl)
      (by decide) (by simp) (List.all_eq_true.1 rfl) (by decide) (List.all_eq_true.1 rfl)
      (by decide)]
    rfl
  refine ⟨?_, hclock⟩
  rw [read_minutesSeconds_eq_read_clock_succ (by decide) (List.all_eq_true.1 rfl) (by decide)
    (by decide) (List.all_eq_true.1 rfl) (by decide) (List.all_eq_true.1 rfl) (by decide)
    (by decide), hclock]
  rfl

/-! ## Every reading fits 64 bits -/

theorem roundToCount_le (x : Float) : roundToCount x ≤ countLimit := by
  unfold roundToCount
  exact Nat.min_le_right _ _

/-- The last test of a time span: within a day for the clock, and within 64 bits for the days and
for the whole. -/
theorem le_of_span_tests {c : Bool} {a t ms : ℕ}
    (h : (if c = true then
      (if (decide (a ≤ countLimit) && decide (t ≤ countLimit)) = true then some t else none)
      else none) = some ms) : ms ≤ countLimit := by
  split at h
  · split at h
    · next hle =>
      cases h
      simp only [Bool.and_eq_true, decide_eq_true_eq] at hle
      exact hle.2
    · cases h
  · cases h

/-- A time span is refused, not cut, past the largest 64-bit count. -/
theorem readSpan_le {t : String} {ms : ℕ} (h : readSpan t = some ms) : ms ≤ countLimit := by
  unfold readSpan at h
  split at h
  · split at h
    · next hle =>
      cases h
      exact hle
    · cases h
  · split at h
    · -- split the seconds from their fraction, then days or not: both end in the same tests
      split at h
      split at h
      · simp only [Option.bind_eq_bind, Option.bind_eq_some_iff, Option.map_eq_some_iff] at h
        obtain ⟨_, ⟨_, -, rfl⟩, _, -, _, -, _, -, _, -, h⟩ := h
        exact le_of_span_tests h
      · simp only [Option.bind_eq_bind, Option.bind_some, Option.bind_eq_some_iff] at h
        obtain ⟨_, -, _, -, _, -, _, -, h⟩ := h
        exact le_of_span_tests h
    · cases h

theorem readMinutesSeconds_le {a b : String} {ms : ℕ} (h : readMinutesSeconds a b = some ms) :
    ms ≤ countLimit := by
  unfold readMinutesSeconds at h
  simp only [Option.bind_eq_bind, Option.bind_eq_some_iff] at h
  obtain ⟨_, -, _, -, h⟩ := h
  split at h
  · cases h
  · cases h
    exact roundToCount_le _

/-- Every duration read fits 64 bits. -/
theorem read_le {input : String} {ms : ℕ} (h : read input = some ms) : ms ≤ countLimit := by
  unfold read at h
  dsimp only at h
  split at h
  · cases h
    exact Nat.zero_le _
  · split at h
    · split at h
      · exact readSpan_le h
      · cases hms : readMinutesSeconds _ _ with
        | none =>
          rw [hms] at h
          exact readSpan_le h
        | some v =>
          rw [hms] at h
          cases h
          exact readMinutesSeconds_le hms
    · exact readSpan_le h

/-- `[days.]hours:minutes:seconds[.fraction]` in digits, hours within a day, minutes and seconds
below sixty and at most seven digits of fraction, reads as its exact milliseconds, the fraction
cut after its third digit, and as nothing past the largest 64-bit count. -/
theorem read_span_exact_or_refused (d h m s f : List Char) (hdd : ∀ c ∈ d, c.isDigit = true)
    (hh : h ≠ []) (hhd : ∀ c ∈ h, c.isDigit = true) (hh24 : digitsValue h < 24)
    (hm : m ≠ []) (hmd : ∀ c ∈ m, c.isDigit = true) (hm60 : digitsValue m < 60)
    (hs : s ≠ []) (hsd : ∀ c ∈ s, c.isDigit = true) (hs60 : digitsValue s < 60)
    (hfd : ∀ c ∈ f, c.isDigit = true) (hf7 : f.length ≤ 7) :
    read (String.ofList (daysChars d ++ h ++ ':' :: m ++ ':' :: secondsChars s f)) =
      if digitsValue d * msDay + (digitsValue h * msHour + digitsValue m * msMinute +
          digitsValue s * msSecond + digitsValue f * 1000 / 10 ^ f.length) ≤ countLimit
      then some (digitsValue d * msDay + (digitsValue h * msHour + digitsValue m * msMinute +
          digitsValue s * msSecond + digitsValue f * 1000 / 10 ^ f.length))
      else none := by
  rw [read_eq_readSpan hdd hh hhd hs hsd hfd]
  exact readSpan_days hdd hh hhd hh24 hm hmd hm60 hs hsd hs60 hfd hf7

/-- `1.00:00:00` is one day. -/
theorem read_span_one_day : read "1.00:00:00" = some msDay := by
  have htext : "1.00:00:00" = String.ofList (daysChars ['1'] ++ ['0', '0'] ++ ':' :: ['0', '0'] ++
      ':' :: secondsChars ['0', '0'] []) := by
    rw [← String.toList_inj, String.toList_ofList]
    rfl
  have hzeros : ∀ c ∈ ['0', '0'], c.isDigit = true := List.all_eq_true.1 rfl
  rw [htext, read_span_exact_or_refused ['1'] ['0', '0'] ['0', '0'] ['0', '0'] [] (List.all_eq_true.1 rfl)
    (by simp) hzeros (by decide) (by simp) hzeros (by decide) (by simp) hzeros (by decide)
    (List.forall_mem_nil _) (by decide), if_pos (by decide)]
  rfl

/-- Some thousand billion minutes, past the largest 64-bit count of milliseconds, are held at that
count. -/
theorem read_minutes_past_count_held : read "999999999999999:00" = some countLimit := by
  have htext : "999999999999999:00" =
      String.ofList ("999999999999999".toList ++ ':' :: "00".toList) := by
    rw [← String.toList_inj, String.toList_ofList]
    rfl
  rw [htext]
  exact read_minutesSeconds_past_count (by simp) (List.all_eq_true.1 rfl) (by decide) (by simp)
    (List.all_eq_true.1 rfl) (by decide) (by decide)

end ClipSearch.Duration
