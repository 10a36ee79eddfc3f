import ClipSearch.Proofs.DurationInput
/-!
# Written durations read back

`clockText` writes the whole seconds of a duration as `hh:mm:ss`, the hours not wrapped at a
day, each part at least two digits. Read back, the text is a time span without days, and a time
span takes hours below a day only. So a written duration below a day reads back as its whole
seconds, and one of a day or more, whose text shows 24 hours or more, is refused
(`read_clockText`): one day is written `24:00:00` and read as nothing
(`read_clockText_one_day`).
-/
namespace ClipSearch.Duration

open ClipSearch.Decimal

/-- A count in decimal with at least two digits, a zero in front of a single digit: how
`clockText` writes each part. -/
def twoDigits (n : Nat) : List Char :=
  if (Nat.toDigits 10 n).length < 2 then '0' :: Nat.toDigits 10 n else Nat.toDigits 10 n

theorem twoDigits_ne_nil (n : Nat) : twoDigits n ≠ [] := by
  unfold twoDigits
  split
  · exact List.cons_ne_nil _ _
  · exact Nat.toDigits_ne_nil

theorem twoDigits_digits (n : Nat) : ∀ c ∈ twoDigits n, c.isDigit = true := by
  intro c hc
  unfold twoDigits at hc
  split at hc
  · rcases List.mem_cons.1 hc with rfl | hc
    · rfl
    · exact isDigit_of_mem_toDigits hc
  · exact isDigit_of_mem_toDigits hc

@[simp] theorem digitsValue_twoDigits (n : Nat) : digitsValue (twoDigits n) = n := by
  unfold twoDigits
  split
  · rw [← List.singleton_append, digitsValue_append, digitsValue_toDigits,
      show digitsValue ['0'] = 0 by decide, Nat.zero_mul, Nat.zero_add]
  · exact digitsValue_toDigits n

/-- The text of a duration: hours, minutes and seconds of its whole seconds, joined by colons. -/
theorem clockText_eq (ms : Nat) :
    clockText ms = String.ofList (twoDigits (ms / 1000 / 3600) ++ ':' ::
      twoDigits (ms / 1000 / 60 % 60) ++ ':' :: twoDigits (ms / 1000 % 60)) := by
  have htwo : ∀ n, (let s := String.ofList (Nat.toDigits 10 n)
      if s.length < 2 then "0" ++ s else s) = String.ofList (twoDigits n) := by
    intro n
    simp only [twoDigits, String.length_ofList]
    split
    · rw [← String.toList_inj]
      simp
    · rfl
  simp only [clockText, htwo]
  rw [← String.toList_inj]
  simp

/-- `[days.]hours:minutes:seconds[.fraction]` in digits is refused when the hours make a day or
more, whatever the days, minutes, seconds and fraction. -/
theorem readSpan_hours_past_day {d h m s f : List Char} (hdd : ∀ c ∈ d, c.isDigit = true)
    (hhd : ∀ c ∈ h, c.isDigit = true) (hh24 : 24 ≤ digitsValue h)
    (hmd : ∀ c ∈ m, c.isDigit = true) (hsd : ∀ c ∈ s, c.isDigit = true)
    (hfd : ∀ c ∈ f, c.isDigit = true) :
    readSpan (String.ofList (daysChars d ++ h ++ ':' :: m ++ ':' :: secondsChars s f)) = none := by
  have hh : h ≠ [] := by
    rintro rfl
    exact absurd hh24 (by decide)
  have hlt : ¬ digitsValue h < 24 := Nat.not_lt.2 hh24
  unfold readSpan
  rw [readCount_of_colon (by simp),
    splitOn_colon_three (colon_not_mem_daysChars hdd hhd) (not_mem_of_digits (by decide) hmd)
      (colon_not_mem_secondsChars hsd hfd)]
  dsimp only
  rw [splitFirstDot_daysChars hdd hhd]
  by_cases hd : d = []
  · subst hd
    simp only [daysChars, if_true, List.nil_append, Option.bind_eq_bind, Option.bind_some,
      readDigitsOnly_eq hh hhd]
    split <;> simp [hlt]
  · rw [if_neg hd]
    simp only [Option.bind_eq_bind, Option.bind_map, Function.comp_def, readDigitsOnly_eq hh hhd]
    split <;> simp [hlt]

section Written

variable (ms : Nat)

/-- The text of a duration as a time span without days, its seconds without a fraction. -/
theorem clockText_eq_span :
    clockText ms = String.ofList (daysChars [] ++ twoDigits (ms / 1000 / 3600) ++
      ':' :: twoDigits (ms / 1000 / 60 % 60) ++ ':' ::
      secondsChars (twoDigits (ms / 1000 % 60)) []) := by
  rw [clockText_eq]
  rfl

theorem read_clockText_eq_readSpan : read (clockText ms) = readSpan (clockText ms) := by
  have hnil : ∀ c ∈ ([] : List Char), c.isDigit = true := List.forall_mem_nil _
  rw [clockText_eq_span, read_eq_readSpan hnil (twoDigits_ne_nil _) (twoDigits_digits _)
    (twoDigits_ne_nil _) (twoDigits_digits _) hnil]

/-- Below a day, a written duration reads back as its whole seconds. -/
theorem read_clockText_of_lt (hday : ms < msDay) : read (clockText ms) = some (ms - ms % 1000) := by
  have hnil : ∀ c ∈ ([] : List Char), c.isDigit = true := List.forall_mem_nil _
  have hh24 : ms / 1000 / 3600 < 24 := by
    unfold msDay msHour msMinute msSecond at hday
    omega
  have hm60 : ms / 1000 / 60 % 60 < 60 := Nat.mod_lt _ (by decide)
  have hs60 : ms / 1000 % 60 < 60 := Nat.mod_lt _ (by decide)
  have hclock : ms / 1000 / 3600 * msHour + ms / 1000 / 60 % 60 * msMinute +
      ms / 1000 % 60 * msSecond = ms - ms % 1000 := by
    unfold msHour msMinute msSecond
    omega
  have hlimit : ms - ms % 1000 ≤ countLimit := by
    have : msDay ≤ countLimit := by decide
    omega
  rw [read_clockText_eq_readSpan, clockText_eq_span,
    readSpan_days hnil (twoDigits_ne_nil _) (twoDigits_digits _)
      (by rwa [digitsValue_twoDigits]) (twoDigits_ne_nil _) (twoDigits_digits _)
      (by rwa [digitsValue_twoDigits]) (twoDigits_ne_nil _) (twoDigits_digits _)
      (by rwa [digitsValue_twoDigits]) hnil (by decide)]
  simp only [digitsValue_twoDigits, show digitsValue ([] : List Char) = 0 from rfl,
    List.length_nil, Nat.zero_mul, Nat.zero_div, Nat.zero_add, Nat.add_zero, hclock]
  rw [if_pos hlimit]

/-- From a day on, a written duration shows 24 hours or more and is refused. -/
theorem read_clockText_of_le (hday : msDay ≤ ms) : read (clockText ms) = none := by
  have hnil : ∀ c ∈ ([] : List Char), c.isDigit = true := List.forall_mem_nil _
  have hh24 : 24 ≤ ms / 1000 / 3600 := by
    unfold msDay msHour msMinute msSecond at hday
    omega
  rw [read_clockText_eq_readSpan, clockText_eq_span]
  exact readSpan_hours_past_day hnil (twoDigits_digits _) (by rwa [digitsValue_twoDigits])
    (twoDigits_digits _) (twoDigits_digits _) hnil

/-- A written duration reads back as its whole seconds below a day, and as nothing from a day
on. -/
theorem read_clockText : read (clockText ms) = if ms < msDay then some (ms - ms % 1000) else none := by
  split
  · next hday => exact read_clockText_of_lt ms hday
  · next hday => exact read_clockText_of_le ms (Nat.le_of_not_lt hday)

end Written

/-- One day is written `24:00:00`, which does not read back as a day. -/
theorem read_clockText_one_day :
    clockText 86400000 = "24:00:00" ∧ read (clockText 86400000) ≠ some 86400000 := by
  refine ⟨by decide, ?_⟩
  rw [read_clockText_of_le 86400000 (by decide)]
  exact (Option.some_ne_none _).symm

end ClipSearch.Duration
