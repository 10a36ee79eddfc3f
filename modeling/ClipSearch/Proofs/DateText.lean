import ClipSearch.Proofs.Digits
import ClipSearch.Calendar.Reading
/-!
# Dates written and read back

`Date.slashText` writes a date as `yyyy/MM/dd`, with a sign before a year outside 0 through
9999, and `readDate` reads every valid date back from it (`readDate_slashText`). The day bounds
of a date range start at midnight, so a moment is not before a day's start exactly when its date
is not before that day (`notAfter_startOfDay`).
-/
namespace ClipSearch.Calendar

open ClipSearch.Text ClipSearch.Decimal

/-! ## Digits on the page -/

theorem isBlank_of_isDigit {c : Char} (h : c.isDigit = true) : isBlank c = false := by
  simp only [Char.isDigit, Bool.and_eq_true, decide_eq_true_eq] at h
  have h1 : 48 ≤ c.toNat := h.1
  have h2 : c.toNat ≤ 57 := h.2
  simp only [isBlank, Bool.or_eq_false_iff, Bool.and_eq_false_iff, decide_eq_false_iff_not,
    beq_eq_false_iff_ne, ne_eq]
  omega

theorem padded_toList (w n : Nat) :
    (padded w n).toList =
      List.replicate (w - (Nat.toDigits 10 n).length) '0' ++ Nat.toDigits 10 n := by
  simp [padded]

theorem isDigit_of_mem_padded {w n : Nat} {c : Char} (h : c ∈ (padded w n).toList) :
    c.isDigit = true := by
  rw [padded_toList, List.mem_append, List.mem_replicate] at h
  rcases h with ⟨-, rfl⟩ | h
  · rfl
  · exact isDigit_of_mem_toDigits h

theorem digitsValue_padded (w n : Nat) : digitsValue (padded w n).toList = n := by
  rw [padded_toList, digitsValue_append]
  simp

/-- A number that fits `w` digits takes exactly `w` characters. -/
theorem length_padded {w n : Nat} (hw : 0 < w) (h : n < 10 ^ w) : (padded w n).toList.length = w := by
  rw [padded_toList, List.length_append, List.length_replicate]
  have := length_toDigits_le h hw
  omega

theorem padded_ne_nil (w n : Nat) : (padded w n).toList ≠ [] := by
  simp [padded_toList]

/-- Reading digits up to the first character that is not one. -/
theorem readDigits_digits {least most : Nat} {ds rest : List Char}
    (hd : ∀ c ∈ ds, c.isDigit = true) (hrest : ∀ c ∈ rest.head?, c.isDigit = false)
    (hl : least ≤ ds.length) (hm : ds.length ≤ most) :
    readDigits least most (ds ++ rest) = some (digitsValue ds, ds.length, rest) := by
  have htake : (ds ++ rest).takeWhile Char.isDigit = ds := by
    rw [List.takeWhile_append_of_pos hd]
    cases rest with
    | nil => simp
    | cons c rest => simp [hrest c rfl]
  simp only [readDigits, htake, List.take_of_length_le hm, if_neg (Nat.not_lt.2 hl),
    List.drop_left]
  rfl

theorem dropBlankFront_of_isDigit {c : Char} (h : c.isDigit = true) (cs : List Char) :
    dropBlankFront (c :: cs) = c :: cs := by
  simp [dropBlankFront, isBlank_of_isDigit h]

theorem dropBlankFront_padded (w n : Nat) (rest : List Char) :
    dropBlankFront ((padded w n).toList ++ rest) = (padded w n).toList ++ rest := by
  obtain ⟨c, cs, hc⟩ := List.exists_cons_of_ne_nil (padded_ne_nil w n)
  rw [hc, List.cons_append, dropBlankFront_of_isDigit (isDigit_of_mem_padded (hc ▸ List.mem_cons_self))]

/-- A padded number followed by anything but a digit reads back whole. -/
theorem readDigits_padded {least most w n : Nat} {rest : List Char}
    (hrest : ∀ c ∈ rest.head?, c.isDigit = false) (hl : least ≤ (padded w n).toList.length)
    (hm : (padded w n).toList.length ≤ most) :
    readDigits least most ((padded w n).toList ++ rest) =
      some (n, (padded w n).toList.length, rest) := by
  rw [readDigits_digits (fun _ hc => isDigit_of_mem_padded hc) hrest hl hm, digitsValue_padded]

/-- The year as `yearText` writes it, then `/`, reads back. -/
theorem readYear_yearText (y : Int) (rest : List Char) :
    readYear ((yearText y).toList ++ '/' :: rest) = some (y, '/' :: rest) := by
  have hpos : ∀ n, 0 < (padded 4 n).toList.length := fun n =>
    List.length_pos_iff.2 (padded_ne_nil 4 n)
  unfold yearText
  split
  · next hy =>
    simp only [Bool.and_eq_true, decide_eq_true_eq] at hy
    have hlen : (padded 4 y.toNat).toList.length = 4 := length_padded (by decide) (by omega)
    obtain ⟨c, cs, hc⟩ := List.exists_cons_of_ne_nil (padded_ne_nil 4 y.toNat)
    have hdig : c.isDigit = true := isDigit_of_mem_padded (hc ▸ List.mem_cons_self)
    have hread : readDigits 1 4 ((padded 4 y.toNat).toList ++ '/' :: rest) =
        some (y.toNat, (padded 4 y.toNat).toList.length, '/' :: rest) :=
      readDigits_padded (by simp) (by omega) (by omega)
    rw [readYear, dropBlankFront_padded]
    rw [hc] at hread ⊢
    have hne1 : c ≠ '-' := fun e => by subst e; simp at hdig
    have hne2 : c ≠ '+' := fun e => by subst e; simp at hdig
    simp only [List.cons_append]
    split
    · next h => exact absurd (List.cons.inj h).1 hne1
    · next h => exact absurd (List.cons.inj h).1 hne2
    · rw [← List.cons_append, hread]
      simp [Int.toNat_of_nonneg hy.1]
  · next hy =>
    have hread : readDigits 1 ((padded 4 y.natAbs).toList ++ '/' :: rest).length
        ((padded 4 y.natAbs).toList ++ '/' :: rest) =
          some (y.natAbs, (padded 4 y.natAbs).toList.length, '/' :: rest) :=
      readDigits_padded (by simp) (hpos _) (by simp)
    have hnb : ∀ c, c = '-' ∨ c = '+' → dropBlankFront (c :: ((padded 4 y.natAbs).toList ++ '/' :: rest)) =
        c :: ((padded 4 y.natAbs).toList ++ '/' :: rest) := by
      rintro c (rfl | rfl) <;> rfl
    split
    · next hneg =>
      rw [String.toList_append, show "-".toList = ['-'] from rfl, List.singleton_append, List.cons_append,
        readYear, hnb _ (.inl rfl)]
      simp only [hread, Option.map_some, Option.some.injEq, Prod.mk.injEq, and_true]
      omega
    · next hneg =>
      rw [String.toList_append, show "+".toList = ['+'] from rfl, List.singleton_append, List.cons_append,
        readYear, hnb _ (.inr rfl)]
      simp only [hread, Option.map_some, Option.some.injEq, Prod.mk.injEq, and_true]
      omega

/-- A month or day written with two digits reads back, followed by anything but a digit. -/
theorem readSmall_padded {top n : Nat} {rest : List Char} (hn : n ≤ top) (h100 : n < 100)
    (hrest : ∀ c ∈ rest.head?, c.isDigit = false) :
    readSmall top ((padded 2 n).toList ++ rest) = some (n, rest) := by
  have hlen : (padded 2 n).toList.length = 2 := length_padded (by decide) h100
  rw [readSmall, dropBlankFront_padded, readDigits_padded hrest (by omega) (by omega)]
  simp [hn]

/-! ## Reading a date back -/

theorem dropBlankFront_of_head {cs : List Char} (h : ∀ c ∈ cs.head?, isBlank c = false) :
    dropBlankFront cs = cs := by
  cases cs with
  | nil => rfl
  | cons c cs => simp [dropBlankFront, h c rfl]

theorem dropBlankBack_of_getLast {cs : List Char} (h : ∀ c ∈ cs.getLast?, isBlank c = false) :
    dropBlankBack cs = cs := by
  rw [dropBlankBack, ← dropBlankFront, dropBlankFront_of_head (by simpa using h), List.reverse_reverse]

/-- Trimming leaves a text alone whose first and last characters are not blank. -/
theorem trim_of_ends {s : String} (hhead : ∀ c ∈ s.toList.head?, isBlank c = false)
    (hlast : ∀ c ∈ s.toList.getLast?, isBlank c = false) : trim s = s := by
  rw [← String.toList_inj, trim_toList, dropBlankFront_of_head hhead, dropBlankBack_of_getLast hlast]

theorem slashText_toList (d : Date) :
    d.slashText.toList =
      (yearText d.year).toList ++ '/' :: ((padded 2 d.month).toList ++ '/' :: (padded 2 d.day).toList) := by
  simp [Date.slashText, Date.textWith]

/-- The slash layout reads the three fields of a written date. -/
theorem readLayout_slashText {d : Date} (hm : 1 ≤ d.month ∧ d.month ≤ 12) (hd : 1 ≤ d.day ∧ d.day ≤ 31) :
    readLayout [.year, .text "/", .month, .text "/", .day] d.slashText.toList =
      some { year := some d.year, month := some d.month, day := some d.day } := by
  have hday : readSmall 31 ((padded 2 d.day).toList ++ []) = some (d.day, []) :=
    readSmall_padded hd.2 (by omega) (by simp)
  rw [List.append_nil] at hday
  have hmonth : readSmall 12 ((padded 2 d.month).toList ++ '/' :: (padded 2 d.day).toList) =
      some (d.month, '/' :: (padded 2 d.day).toList) :=
    readSmall_padded hm.2 (by omega) (by simp)
  have hslash : "/".length = 1 := rfl
  simp only [readLayout, List.foldl_cons, List.foldl_nil, slashText_toList, Piece.read,
    readYear_yearText, Option.map_some, Option.bind_some]
  simp [hslash, hmonth, hday, show d.month ≠ 0 by omega, show d.day ≠ 0 by omega]

theorem Date.daysInMonth_le (y : Int) (m : Nat) : Date.daysInMonth y m ≤ 31 := by
  unfold Date.daysInMonth
  split
  · split <;> omega
  all_goals omega

theorem Date.ofYmd?_of_valid {d : Date} (h : d.valid = true) : Date.ofYmd? d.year d.month d.day = some d := by
  simp [Date.ofYmd?, h]

/-! ## The characters of a written date -/

theorem mem_yearText {y : Int} {c : Char} (h : c ∈ (yearText y).toList) :
    c.isDigit = true ∨ c = '-' ∨ c = '+' := by
  unfold yearText at h
  split at h
  · exact .inl (isDigit_of_mem_padded h)
  · rw [String.toList_append, List.mem_append] at h
    rcases h with h | h
    · split at h <;> simp_all
    · exact .inl (isDigit_of_mem_padded h)

/-- A year from 0 on is written without a sign. -/
theorem dash_not_mem_yearText {y : Int} (hy : 0 ≤ y) : '-' ∉ (yearText y).toList := by
  unfold yearText
  split
  · exact fun h => absurd (isDigit_of_mem_padded h) (by decide)
  · next hbig =>
    have hneg : ¬y < 0 := by omega
    simp only [hneg, if_false, String.toList_append, List.mem_append]
    rintro (h | h)
    · simp at h
    · exact absurd (isDigit_of_mem_padded h) (by decide)

theorem mem_slashText {d : Date} {c : Char} (h : c ∈ d.slashText.toList) :
    c.isDigit = true ∨ c = '/' ∨ c = '-' ∨ c = '+' := by
  rw [slashText_toList] at h
  simp only [List.mem_append, List.mem_cons] at h
  rcases h with h | h | h | h | h
  · rcases mem_yearText h with h | h | h <;> simp [h]
  all_goals first | exact .inr (.inl h) | exact .inl (isDigit_of_mem_padded h)

theorem isBlank_of_mem_slashText {d : Date} {c : Char} (h : c ∈ d.slashText.toList) :
    isBlank c = false := by
  rcases mem_slashText h with h | rfl | rfl | rfl
  · exact isBlank_of_isDigit h
  all_goals decide

/-- The date written after a year from 0 on has no `-` for a range to split at. -/
theorem dash_not_mem_slashText {d : Date} (hy : 0 ≤ d.year) : '-' ∉ d.slashText.toList := by
  rw [slashText_toList]
  simp only [List.mem_append, List.mem_cons, not_or]
  refine ⟨dash_not_mem_yearText hy, by decide, ?_, by decide, ?_⟩ <;>
    exact fun h => absurd (isDigit_of_mem_padded h) (by decide)

/-- Every valid date reads back from its slash form. -/
theorem readDate_slashText {d : Date} (h : d.valid = true) : readDate d.slashText = some d := by
  have hv := h
  simp only [Date.valid, Bool.and_eq_true, decide_eq_true_eq] at hv
  obtain ⟨⟨⟨⟨⟨-, -⟩, hm1⟩, hm2⟩, hd1⟩, hd2⟩ := hv
  have hread := readLayout_slashText ⟨hm1, hm2⟩ ⟨hd1, le_trans hd2 (Date.daysInMonth_le _ _)⟩
  unfold readDate
  rw [trim_of_ends (fun _ hc => isBlank_of_mem_slashText (List.mem_of_mem_head? hc))
    (fun _ hc => isBlank_of_mem_slashText (List.mem_of_mem_getLast? hc))]
  simp only [dateLayouts, firstSome, hread, Option.bind_some, Fields.date?, Date.ofYmd?_of_valid h]

/-- Text that is no date. -/
theorem readDate_empty : readDate "" = none := by
  decide

/-! ## Whole days -/

theorem Date.before_irrefl (d : Date) : d.before d = false := by
  simp [Date.before]

/-- A moment is not before the start of a day exactly when its date is not. -/
theorem notAfter_startOfDay (d : Date) (m : Moment) :
    (Moment.startOfDay d).notAfter m = !m.date.before d := by
  simp [Moment.notAfter, Moment.before, Moment.startOfDay]

end ClipSearch.Calendar
