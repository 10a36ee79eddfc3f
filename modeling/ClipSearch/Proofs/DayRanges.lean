import ClipSearch.Proofs.DateText
import ClipSearch.Proofs.QueryLaws
/-!
# Date ranges by calendar day

A date range read from text bounds moments by whole days: from the first instant of its first
day to the last nanosecond before the day after its last. A moment within its day
(`second < 86400`) is held exactly when its date lies within the days the text names
(`DateRange.holds_ofText_day`, `DateRange.holds_ofText_span`), with one exception: the leap
second that closes the last day, written `23:59:60`, comes after that last nanosecond and is
left out (`leap_second_after_its_day`). A missing moment is in no date range
(`DateRange.holds_none`). `DateRange.holds_whole_days` gathers the three cases for every moment
but that leap second.
-/
namespace ClipSearch.Calendar

theorem Date.eq_of_not_before {a b : Date} (hab : a.before b = false) (hba : b.before a = false) :
    a = b := by
  obtain ⟨y, m, d⟩ := a
  obtain ⟨y', m', d'⟩ := b
  simp only [Date.before, Bool.or_eq_false_iff, Bool.and_eq_false_iff, decide_eq_false_iff_not,
    beq_eq_false_iff_ne, ne_eq] at hab hba
  simp only [Date.mk.injEq]
  omega

/-- A moment within its day is not after the last nanosecond of day `d` exactly when its date is
not after `d` and, on `d` itself, it is not the leap second that closes the day. -/
theorem Moment.notAfter_endOfDay_iff {m : Moment} (hm : m.second < 86400) (d : Date) :
    m.notAfter (Moment.endOfDay d) = true ↔
      d.before m.date = false ∧ (m.date = d → m.second < 86399 ∨ m.nano < 1000000000) := by
  unfold Moment.notAfter Moment.before Moment.endOfDay
  simp only [Bool.not_eq_true', Bool.or_eq_false_iff, Bool.and_eq_false_iff, beq_eq_false_iff_ne,
    ne_eq, decide_eq_false_iff_not, not_lt]
  refine and_congr_right fun _ => ?_
  -- only on `d` itself does the time of day matter
  by_cases hd : d = m.date
  · simp only [hd, not_true_eq_false, false_or, forall_const]
    omega
  · simp only [hd, not_false_eq_true, true_or, true_iff]
    exact fun heq => absurd heq.symm hd

end ClipSearch.Calendar

namespace ClipSearch.Query

open ClipSearch.Calendar ClipSearch.Text

theorem DateRange.holds_none (r : DateRange) : r.holds none = false := by
  cases r <;> rfl

/-- A range of two sides: a moment within its day is held when its date is not before the
first day named and not after the last, and on the last day it is not the closing leap second.
A side that names no date is open. -/
theorem DateRange.holds_ofText_span {l r : String} (hl : '-' ∉ l.toList) {m : Moment}
    (hm : m.second < 86400) :
    (DateRange.ofText (l ++ "-" ++ r)).holds (some m) = true ↔
      (∀ d, readDate l = some d → ¬ m.date < d) ∧
      (∀ d, readDate r = some d →
        ¬ d < m.date ∧ (m.date = d → m.second < 86399 ∨ m.nano < 1000000000)) := by
  have hsplit : splitFirst '-' (l ++ "-" ++ r) = some (l, r) := splitFirst_append hl
  rw [DateRange.ofText, hsplit]
  simp only [DateRange.holds, Bool.and_eq_true]
  apply and_congr
  · cases readDate l with
    | none => simp
    | some d =>
      simp only [Option.map_some, notAfter_startOfDay, Bool.not_eq_true', Option.some.injEq,
        forall_eq']
      exact Bool.eq_false_iff
  · cases readDate r with
    | none => simp
    | some d =>
      simp only [Option.map_some, Moment.notAfter_endOfDay_iff hm, Option.some.injEq, forall_eq']
      exact and_congr Bool.eq_false_iff Iff.rfl

/-- A single date: a moment within its day is held when it falls on that date and is not the
leap second that closes it; text that names no date holds nothing. -/
theorem DateRange.holds_ofText_day {v : String} (hv : '-' ∉ v.toList) {m : Moment}
    (hm : m.second < 86400) :
    (DateRange.ofText v).holds (some m) = true ↔
      readDate v = some m.date ∧ (m.second < 86399 ∨ m.nano < 1000000000) := by
  have hsplit : splitFirst '-' v = none := by
    simp [splitFirst, hv]
  rw [DateRange.ofText, hsplit]
  cases hd : readDate v with
  | none => simp [DateRange.holds]
  | some d =>
    simp only [DateRange.holds, notAfter_startOfDay, Moment.notAfter_endOfDay_iff hm,
      Bool.and_eq_true, Bool.not_eq_true', Option.some.injEq]
    constructor
    · rintro ⟨hstart, hbefore, hsame⟩
      have heq : m.date = d := Date.eq_of_not_before hstart hbefore
      exact ⟨heq.symm, hsame heq⟩
    · rintro ⟨rfl, hleap⟩
      exact ⟨Date.before_irrefl _, Date.before_irrefl _, fun _ => hleap⟩

/-- Date ranges select whole calendar days for every moment within its day but the leap second
that closes it: a missing moment is never held; text without `-` holds the moments of the date
it names; `l-r` holds the moments whose date is not before the day `l` names nor after the day
`r` names, a side that names no date being open. -/
theorem DateRange.holds_whole_days (v : String) (m : Moment) (hm : m.second < 86400)
    (hleap : m.second < 86399 ∨ m.nano < 1000000000) :
    (DateRange.ofText v).holds none = false ∧
      ('-' ∉ v.toList → ((DateRange.ofText v).holds (some m) = true ↔ readDate v = some m.date)) ∧
      (∀ l r, '-' ∉ l.toList → v = l ++ "-" ++ r →
        ((DateRange.ofText v).holds (some m) = true ↔
          (∀ d, readDate l = some d → ¬m.date < d) ∧ (∀ d, readDate r = some d → ¬d < m.date))) := by
  refine ⟨DateRange.holds_none _, fun hv => ?_, fun l r hl hv => ?_⟩
  · rw [DateRange.holds_ofText_day hv hm]
    exact and_iff_left hleap
  · -- on the last day the closing leap second is the only moment left out, and `m` is not it
    rw [hv, DateRange.holds_ofText_span hl hm]
    exact and_congr Iff.rfl (forall₂_congr fun d _ => and_iff_left fun _ => hleap)

theorem DateRange.holds_whole_days_noon :
    (43200 < 86400 ∧ (43200 < 86399 ∨ 0 < 1000000000)) ∧
      (DateRange.ofText "2024/05/01").holds none = false ∧
      ('-' ∉ "2024/05/01".toList →
        ((DateRange.ofText "2024/05/01").holds (some ⟨⟨2024, 5, 1⟩, 43200, 0⟩) = true ↔
          readDate "2024/05/01" = some ⟨2024, 5, 1⟩)) ∧
      (∀ l r, '-' ∉ l.toList → "2024/05/01" = l ++ "-" ++ r →
        ((DateRange.ofText "2024/05/01").holds (some ⟨⟨2024, 5, 1⟩, 43200, 0⟩) = true ↔
          (∀ d, readDate l = some d → ¬(⟨2024, 5, 1⟩ : Date) < d) ∧
            (∀ d, readDate r = some d → ¬d < ⟨2024, 5, 1⟩))) :=
  ⟨⟨by decide, .inl (by decide)⟩,
    DateRange.holds_whole_days "2024/05/01" ⟨⟨2024, 5, 1⟩, 43200, 0⟩ (by decide) (.inl (by decide))⟩

/-- The leap second that closes 2024-05-01 is outside the range of that day. -/
theorem leap_second_after_its_day :
    (DateRange.ofText "2024/05/01").holds (some ⟨⟨2024, 5, 1⟩, 86399, 1000000000⟩) = false := by
  have hday := @DateRange.holds_ofText_day "2024/05/01" (by decide)
    ⟨⟨2024, 5, 1⟩, 86399, 1000000000⟩ (by decide)
  simpa using hday

end ClipSearch.Query
