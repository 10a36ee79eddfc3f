import ClipSearch.Proofs.DateText
import ClipSearch.Catalog.Written
import ClipSearch.Catalog.Lenient
/-!
# Field values of a clip record, written and read back

A record writes a moment as `yyyy/MM/dd HH:mm:ss`, brands as the list of their labels and the
live type by its name. Read back, a moment loses its fraction of a second and keeps a leap
second as one (`readMoment_recordText`), a brand set of the ten brand bits is rebuilt from its
labels (`brandsOfValue_labels`), and a live type from its name (`LiveType.ofName?_name`).
-/
namespace ClipSearch.Calendar

open ClipSearch.Text ClipSearch.Decimal

/-! ## Moments -/

/-- A moment that a date and time can hold: a valid date, a second within its day, and a
nanosecond count of a billion or more only in the last second of a minute, where it marks a
leap second. -/
structure Moment.WellFormed (m : Moment) : Prop where
  valid : m.date.valid = true
  second_lt : m.second < 86400
  nano_lt : m.nano < 2000000000
  leap : 1000000000 ≤ m.nano → m.second % 60 = 59

/-- The moment with its fraction of a second dropped; a leap second stays one. -/
def Moment.wholeSecond (m : Moment) : Moment :=
  { m with nano := m.nano / 1000000000 * 1000000000 }

theorem recordText_toList (m : Moment) :
    m.recordText.toList =
      (yearText m.date.year).toList ++ '/' :: ((padded 2 m.date.month).toList ++ '/' ::
        ((padded 2 m.date.day).toList ++ ' ' :: ((padded 2 m.hour).toList ++ ':' ::
          ((padded 2 m.minute).toList ++ ':' :: (padded 2 m.shownSecond).toList)))) := by
  simp [Moment.recordText, Moment.clockText, Date.slashText, Date.textWith]

theorem readSmall_padded_sep {top n : Nat} (hn : n ≤ top) (h100 : n < 100) {sep : Char}
    (hsep : sep.isDigit = false) (rest : List Char) :
    readSmall top ((padded 2 n).toList ++ sep :: rest) = some (n, sep :: rest) :=
  readSmall_padded hn h100 (by simpa using hsep)

/-- The layout of a date and a time with seconds, read off a written moment. -/
theorem readLayout_recordText {m : Moment} (hm : m.WellFormed) :
    readLayout [.year, .text "/", .month, .text "/", .day, .blank, .hour, .text ":", .minute,
        .text ":", .second, .fraction] m.recordText.toList =
      some
        { year := some m.date.year, month := some m.date.month, day := some m.date.day,
          hour := some m.hour, minute := some m.minute, second := some m.shownSecond } := by
  have hv := hm.valid
  simp only [Date.valid, Bool.and_eq_true, decide_eq_true_eq] at hv
  obtain ⟨⟨⟨⟨⟨-, -⟩, hm1⟩, hm2⟩, hd1⟩, hd2⟩ := hv
  have hd31 := le_trans hd2 (Date.daysInMonth_le m.date.year m.date.month)
  have hhour : m.hour ≤ 23 := by have := hm.second_lt; unfold Moment.hour; omega
  have hminute : m.minute ≤ 59 := by unfold Moment.minute; omega
  have hsecond : m.shownSecond ≤ 60 := by
    have := hm.nano_lt
    unfold Moment.shownSecond
    omega
  have hsec : readSmall 60 (padded 2 m.shownSecond).toList = some (m.shownSecond, []) := by
    have h := @readSmall_padded 60 m.shownSecond [] hsecond (by omega) (by simp)
    rwa [List.append_nil] at h
  have hblank : dropBlankFront (' ' :: ((padded 2 m.hour).toList ++ ':' ::
      ((padded 2 m.minute).toList ++ ':' :: (padded 2 m.shownSecond).toList))) =
      (padded 2 m.hour).toList ++ ':' ::
        ((padded 2 m.minute).toList ++ ':' :: (padded 2 m.shownSecond).toList) := by
    rw [show ∀ xs, dropBlankFront (' ' :: xs) = dropBlankFront xs from fun _ => rfl,
      dropBlankFront_padded]
  simp only [readLayout, List.foldl_cons, List.foldl_nil, recordText_toList, Piece.read,
    readYear_yearText, Option.map_some, Option.bind_some]
  simp [show "/".toList = ['/'] from rfl, show ":".toList = [':'] from rfl,
    show "/".length = 1 from rfl, show ":".length = 1 from rfl,
    show m.date.month ≠ 0 by omega, show m.date.day ≠ 0 by omega,
    readSmall_padded_sep hm2 (by omega) (show '/'.isDigit = false by decide),
    readSmall_padded_sep hd31 (by omega) (show ' '.isDigit = false by decide),
    readSmall_padded_sep hhour (by omega) (show ':'.isDigit = false by decide),
    readSmall_padded_sep hminute (by omega) (show ':'.isDigit = false by decide), hsec, hblank]

/-- RFC 3339 wants four digits of year and a dash; a written moment has a sign or a slash. -/
theorem readRfc3339_yearText_slash (y : Int) (rest : List Char) :
    readRfc3339 ((yearText y).toList ++ '/' :: rest) = none := by
  have hyear : readExact 4 ((yearText y).toList ++ '/' :: rest) = none ∨
      readExact 4 ((yearText y).toList ++ '/' :: rest) = some (y.toNat, '/' :: rest) := by
    unfold yearText
    split
    · next hy =>
      simp only [Bool.and_eq_true, decide_eq_true_eq] at hy
      have hlen : (padded 4 y.toNat).toList.length = 4 := length_padded (by decide) (by omega)
      right
      simp [readExact, readDigits_padded (show ∀ c ∈ ('/' :: rest).head?, c.isDigit = false by simp)
        (le_of_eq hlen.symm) (le_of_eq hlen)]
    · -- a sign stops the digits at once
      left
      have hsign : ∀ c : Char, c.isDigit = false → ∀ cs, readExact 4 (c :: cs) = none := by
        intro c hc cs
        have hdig : readDigits 4 4 (c :: cs) = none := by
          simp [readDigits, hc]
        simp [readExact, hdig]
      split
      · rw [String.toList_append, show "-".toList = ['-'] from rfl, List.singleton_append,
          List.cons_append]
        exact hsign '-' (by decide) _
      · rw [String.toList_append, show "+".toList = ['+'] from rfl, List.singleton_append,
          List.cons_append]
        exact hsign '+' (by decide) _
  rcases hyear with h | h <;> simp only [readRfc3339, h] <;> rfl

/-- The fields of a written moment name it to the second; second 60 is the leap second. -/
theorem moment?_recordFields {m : Moment} (hm : m.WellFormed) :
    Fields.moment?
        { year := some m.date.year, month := some m.date.month, day := some m.date.day,
          hour := some m.hour, minute := some m.minute, second := some m.shownSecond } =
      some m.wholeSecond := by
  have hs := hm.second_lt
  have hn := hm.nano_lt
  have hleap := hm.leap
  simp only [Fields.moment?, Fields.date?, Date.ofYmd?_of_valid hm.valid, Option.getD_some,
    Option.getD_none]
  unfold Moment.wholeSecond Moment.shownSecond Moment.hour Moment.minute
  -- the time of day is the same second either way; only the count of nanoseconds differs
  split
  · next h60 =>
    simp only [Option.some.injEq, Moment.mk.injEq, true_and]
    omega
  · next h60 =>
    simp only [Option.some.injEq, Moment.mk.injEq, true_and]
    omega

theorem yearText_ne_nil (y : Int) : (yearText y).toList ≠ [] := by
  unfold yearText
  split
  · exact padded_ne_nil 4 y.toNat
  · rw [String.toList_append]
    exact fun h => padded_ne_nil 4 _ (List.append_eq_nil_iff.1 h).2

theorem trim_recordText (m : Moment) : trim m.recordText = m.recordText := by
  refine trim_of_ends (fun c hc => ?_) (fun c hc => ?_)
  · obtain ⟨d, ds, hd⟩ := List.exists_cons_of_ne_nil (yearText_ne_nil m.date.year)
    rw [recordText_toList, hd, List.cons_append, List.head?_cons, Option.mem_some_iff] at hc
    subst hc
    rcases mem_yearText (hd ▸ List.mem_cons_self) with h | rfl | rfl
    · exact isBlank_of_isDigit h
    · decide
    · decide
  · have hne := padded_ne_nil 2 m.shownSecond
    rw [recordText_toList] at hc
    obtain ⟨d, hd⟩ := Option.isSome_iff_exists.1 (List.getLast?_isSome.2 hne)
    simp only [List.getLast?_append, List.getLast?_cons, Option.some_or, hd, Option.getD_some,
      Option.mem_some_iff] at hc
    subst hc
    exact isBlank_of_isDigit (isDigit_of_mem_padded (List.mem_of_mem_getLast? hd))

/-- A moment that a date and a time can hold reads back from its record form, to the second. -/
theorem readMoment_recordText {m : Moment} (hm : m.WellFormed) :
    readMoment m.recordText = some m.wholeSecond := by
  have hrfc : readRfc3339 m.recordText.toList = none := by
    rw [recordText_toList]
    exact readRfc3339_yearText_slash _ _
  unfold readMoment
  simp only [trim_recordText, hrfc, momentLayouts, firstSome, List.cons_append, List.nil_append, readLayout_recordText hm, Option.bind_some,
    moment?_recordFields hm]

end ClipSearch.Calendar

namespace ClipSearch.Catalog

open ClipSearch.Json ClipSearch.Calendar ClipSearch.Text

/-! ## Dates of a record -/

/-- A date field reads back as written, to the second; `null` is no date. -/
theorem dateOfValue_momentValue {o : Option Moment} (h : ∀ m ∈ o, m.WellFormed) :
    dateOfValue (momentValue o) = .ok (o.map Moment.wholeSecond) := by
  cases o with
  | none => unfold momentValue dateOfValue; rfl
  | some m =>
    have hne : (trim m.recordText).isEmpty = false := by
      rw [String.isEmpty_eq_false_iff, trim_recordText]
      intro he
      have hnil := congrArg String.toList he
      rw [recordText_toList, String.toList_empty] at hnil
      exact yearText_ne_nil m.date.year (List.append_eq_nil_iff.1 hnil).1
    -- the equation lemmas of `dateOfValue` are slow to build; its unfolding is not
    unfold momentValue dateOfValue
    simp only [hne, Bool.false_eq_true, if_false, readMoment_recordText (h m rfl), Option.map_some]

/-! ## Brands by their labels -/

theorem brandOfName_label (b : Brand) : brandOfName b.label = .ok b := by
  cases b <;> rfl

theorem Brand.bit_get (i : Fin Brand.all.length) : (Brand.all.get i).bit = i := by
  revert i
  decide

/-- Brands named by their labels are added one by one. -/
theorem addItems_labels (acc : BrandSet) (bs : List Brand) :
    addItems acc (bs.map fun b => .string b.label) = .ok (bs.foldl BrandSet.insert acc) := by
  induction bs generalizing acc with
  | nil => rfl
  | cons b bs ih =>
    simp only [List.map_cons, addItems, brandOfName_label, List.foldl_cons]
    exact ih (acc.insert b)

/-- Inserting, in bit order, the first `k` brands of a mask rebuilds its lowest `k` bits. -/
theorem foldl_insert_take (s : BrandSet) :
    ∀ k ≤ Brand.all.length,
      ((Brand.all.take k).filter s.has).foldl BrandSet.insert .empty = ⟨s.bits % 2 ^ k⟩ := by
  intro k hk
  induction k with
  | zero => simp [BrandSet.empty, Nat.mod_one]
  | succ k ih =>
    have hk' : k < Brand.all.length := hk
    rw [List.take_add_one, List.getElem?_eq_getElem hk', Option.toList_some, List.filter_append,
      List.foldl_append, ih (by omega)]
    have hpow : Brand.all[k].bit = k := Brand.bit_get ⟨k, hk'⟩
    have hlow : s.bits % 2 ^ k / 2 ^ k = 0 := Nat.div_eq_of_lt (Nat.mod_lt _ (by positivity))
    rcases Nat.mod_two_eq_zero_or_one (s.bits / 2 ^ k) with h0 | h1
    · have hhas : s.has Brand.all[k] = false := by simp [BrandSet.has, hpow, h0]
      simp [hhas, Nat.mod_pow_succ, h0]
    · have hhas : s.has Brand.all[k] = true := by simp [BrandSet.has, hpow, h1]
      have hnew : (⟨s.bits % 2 ^ k⟩ : BrandSet).has Brand.all[k] = false := by
        simp [BrandSet.has, hpow, hlow]
      simp [hhas, BrandSet.insert, hnew, Nat.mod_pow_succ, h1, hpow]

/-- A mask of the ten brand bits is rebuilt by inserting its brands in bit order. -/
theorem BrandSet.foldl_insert_members {s : BrandSet} (hs : s.bits < 2 ^ 10) :
    s.members.foldl BrandSet.insert .empty = s := by
  have h := foldl_insert_take s Brand.all.length le_rfl
  rw [List.take_length] at h
  rw [BrandSet.members, h, show Brand.all.length = 10 from rfl, Nat.mod_eq_of_lt hs]

/-- A brand set of the ten brand bits reads back from the list of its labels. -/
theorem brandsOfValue_labels {s : BrandSet} (hs : s.bits < 2 ^ 10) :
    brandsOfValue (.array (s.labels.map .string)) = .ok s := by
  rw [brandsOfValue, BrandSet.labels, List.map_map]
  exact (addItems_labels .empty s.members).trans (congrArg _ (BrandSet.foldl_insert_members hs))

/-! ## Live types by their names -/

theorem LiveType.ofName?_name (t : LiveType) : LiveType.ofName? t.name = some t := by
  cases t <;> decide

end ClipSearch.Catalog
