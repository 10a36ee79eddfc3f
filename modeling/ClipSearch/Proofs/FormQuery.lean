import ClipSearch.Proofs.FormTokens
import ClipSearch.Proofs.FieldMatch
import ClipSearch.Proofs.DayRanges
import ClipSearch.Proofs.SecondsRange
import ClipSearch.Proofs.DurationInput
/-!
# The search form read back as a query

`Form.build` writes a form as query text, one token for each field filled in. Read back, the
text holds of a clip exactly when the clip has what the form asks for
(`Form.accepts_build_iff`): each filled text field is in the clip's field, case-blind; the
duration lies within the bounds read and each date within the days given, unless the form
refused that range; and the clip has one of the brands, live types and performers chosen.

The form must be one a query can carry: text without quotes or line feeds, performers without
`)`, line feeds or ` OR `, and dates from the year 0 on, since an earlier year is written with a
`-` that the range reader splits at. The clip's duration must be below `2^43` seconds, where
seconds keep counts apart (`Duration.seconds_le_seconds_iff`): past it a lower bound a
millisecond above the duration still holds it (`duration_bound_merges_past_limit`). Its moments
must not be leap seconds, which fall after the last nanosecond of their day
(`leap_second_after_its_day`).

Each token is read back whole and asks for its own field's constraint (`Writes`); the query
joins the tokens, so it asks for all of them (`WritesAll`).
-/
namespace ClipSearch.Query

open ClipSearch.Catalog ClipSearch.Calendar ClipSearch.Text ClipSearch.Duration

/-! ## Tokens and what they ask -/

/-- An optional token that is read back whole and holds of a clip exactly when `P` does; no
token asks nothing. -/
structure Writes (o : Option String) (c : Clip) (P : Prop) : Prop where
  standalone : ∀ w ∈ o, Standalone w
  accepts : ∀ s, (o.all fun w => (tokenPredicate s w).all (·.accepts c)) = true ↔ P

/-- Optional tokens that are each read back whole and together hold of a clip exactly when `P`
does. -/
structure WritesAll (os : List (Option String)) (c : Clip) (P : Prop) : Prop where
  standalone : ∀ o ∈ os, ∀ w ∈ o, Standalone w
  accepts : ∀ s, (os.all fun o => o.all fun w => (tokenPredicate s w).all (·.accepts c)) = true ↔ P

section Writes

variable {c : Clip} {P Q : Prop}

theorem Writes.none (h : P) : Writes none c P :=
  ⟨fun _ hw => absurd hw (Option.not_mem_none _), fun _ => iff_of_true rfl h⟩

theorem Writes.congr {o : Option String} (h : Writes o c P) (hPQ : P ↔ Q) : Writes o c Q :=
  ⟨h.standalone, fun s => (h.accepts s).trans hPQ⟩

/-- A standalone token read as one field test asks for that test. -/
theorem Writes.field {w : String} {t : FieldTest} (hw : Standalone w)
    (ht : ∀ s, tokenPredicate s w = some (.field t)) (hP : t.accepts c = true ↔ P) :
    Writes (some w) c P :=
  ⟨fun _ hw' => by cases hw'; exact hw, fun s => by simpa [ht s, Predicate.accepts] using hP⟩

theorem WritesAll.congr {os : List (Option String)} (h : WritesAll os c P) (hPQ : P ↔ Q) :
    WritesAll os c Q :=
  ⟨h.standalone, fun s => (h.accepts s).trans hPQ⟩

theorem WritesAll.nil (c : Clip) : WritesAll [] c True :=
  ⟨by simp, fun _ => by simp⟩

theorem Writes.cons {o : Option String} {os : List (Option String)} (h : Writes o c P)
    (hs : WritesAll os c Q) : WritesAll (o :: os) c (P ∧ Q) := by
  refine ⟨?_, fun s => ?_⟩
  · intro o' ho'
    rcases List.mem_cons.1 ho' with rfl | ho'
    · exact h.standalone
    · exact hs.standalone o' ho'
  · rw [List.all_cons, Bool.and_eq_true, h.accepts s, hs.accepts s]

theorem Writes.single {o : Option String} (h : Writes o c P) : WritesAll [o] c P :=
  (h.cons (WritesAll.nil c)).congr (iff_of_eq (and_true P))

theorem WritesAll.append {os os' : List (Option String)} (h : WritesAll os c P)
    (h' : WritesAll os' c Q) : WritesAll (os ++ os') c (P ∧ Q) := by
  refine ⟨fun o ho => ?_, fun s => ?_⟩
  · rcases List.mem_append.1 ho with ho | ho
    · exact h.standalone o ho
    · exact h'.standalone o ho
  · rw [List.all_append, Bool.and_eq_true, h.accepts s, h'.accepts s]

/-- Tokens written one for each item ask for each item's constraint. -/
theorem WritesAll.map {α : Type} {l : List α} {g : α → Option String} {R : α → Prop}
    (h : ∀ a ∈ l, Writes (g a) c (R a)) : WritesAll (l.map g) c (∀ a ∈ l, R a) := by
  induction l with
  | nil => exact (WritesAll.nil c).congr (by simp)
  | cons a l ih =>
    have hl := ih fun b hb => h b (List.mem_cons_of_mem a hb)
    exact ((h a List.mem_cons_self).cons hl).congr List.forall_mem_cons.symm

/-- The filled tokens, joined by spaces, hold of a clip exactly when all that they ask holds. -/
theorem WritesAll.compile_accepts {os : List (Option String)} (h : WritesAll os c P)
    (s : Settings) : (compile (" ".intercalate (os.filterMap id)) s).accepts c = true ↔ P := by
  have hst : ∀ w ∈ os.filterMap id, Standalone w := fun w hw => by
    obtain ⟨o, ho, hw⟩ := List.mem_filterMap.1 hw
    exact h.standalone o ho w hw
  rw [compile_join_accepts hst, List.all_filterMap]
  exact h.accepts s

end Writes

/-! ## Text fields -/

/-- Case-blind containment of a lowered needle is containment in the lowered text. -/
theorem containsLowered_eq_true_iff (hay needle : String) :
    containsLowered hay needle = true ↔ needle.toList <:+: (lower hay).toList := by
  rw [containsLowered, Bool.or_eq_true, occursIn_eq_true_iff, String.isEmpty_iff]
  constructor
  · rintro (rfl | h)
    · exact List.nil_infix
    · exact h
  · exact .inr

theorem fieldHas_eq_true_iff {o : Option String} {needle : String} :
    fieldHas o needle = true ↔ ∃ s, o = some s ∧ needle.toList <:+: (lower s).toList := by
  cases o <;> simp [fieldHas, containsLowered_eq_true_iff]

theorem textToken_eq_none_iff (key : FieldKey) (v : String) :
    textToken key v = none ↔ (trim v).isEmpty = true := by
  unfold textToken
  split_ifs <;> simp_all

/-- A text field without `"` or a line feed asks, when filled, that the clip's field holds its
value case-blind. -/
theorem writes_textToken (t : TextField) {v : String} (hq : '"' ∉ v.toList) (hn : '\n' ∉ v.toList)
    (c : Clip) :
    Writes (textToken t.key v) c
      ((trim v).isEmpty = false → ∃ s, t.get c = some s ∧ (lower v).toList <:+: (lower s).toList) := by
  cases h : textToken t.key v with
  | none =>
    have hblank := (textToken_eq_none_iff _ _).1 h
    exact .none fun hv => absurd (hblank.symm.trans hv) Bool.noConfusion
  | some w =>
    obtain ⟨hw, ht⟩ := textToken_spec t.key hq hn h
    have hv : (trim v).isEmpty = false := by
      rw [Bool.eq_false_iff]
      intro hblank
      rw [(textToken_eq_none_iff _ _).2 hblank] at h
      cases h
    refine .field hw ht ?_
    rw [FieldTest.accepts_ofKey_key, fieldHas_eq_true_iff]
    simp [hv]

/-! ## Ranges -/

/-- The token of a range: none when the form refuses it. -/
def rangeOption (key : FieldKey) : Except RangeError (String × String) → Option String
  | .ok (lo, hi) => rangeToken key lo hi
  | .error _ => none

/-- A range whose sides hold no space, `"` or `(` asks, when a side is set, what its field's test
holds of, and nothing when neither side is set. -/
theorem writes_rangeToken (key : FieldKey) {lo hi : String}
    (hlo : ∀ ch ∈ lo.toList, ch ≠ ' ' ∧ ch ≠ '"' ∧ ch ≠ '(')
    (hhi : ∀ ch ∈ hi.toList, ch ≠ ' ' ∧ ch ≠ '"' ∧ ch ≠ '(') {c : Clip} {P : Prop}
    (hP : ¬(lo = "" ∧ hi = "") → ((FieldTest.ofKey key.keyword (lo ++ "-" ++ hi)).accepts c = true ↔ P))
    (hempty : lo = "" → hi = "" → P) : Writes (rangeToken key lo hi) c P := by
  cases h : rangeToken key lo hi with
  | none =>
    have hboth : lo = "" ∧ hi = "" := by
      unfold rangeToken at h
      split at h
      · next hne => simpa [String.isEmpty_iff] using hne
      · cases h
    exact .none (hempty hboth.1 hboth.2)
  | some w =>
    have hset : ¬(lo = "" ∧ hi = "") := by
      rintro ⟨rfl, rfl⟩
      cases h
    obtain ⟨hw, ht⟩ := rangeToken_spec key hlo hhi h
    exact .field hw ht (hP hset)

/-! ### Durations -/

/-- A bound read from a duration input is a 64-bit count. -/
theorem lt_of_durationBound {s : String} {o : Option ℕ} (h : durationBound s = some o) :
    ∀ a ∈ o, a < 2 ^ 64 := by
  intro a ha
  unfold durationBound at h
  split at h
  · cases h
    cases ha
  · obtain ⟨b, hb, rfl⟩ := Option.map_eq_some_iff.1 h
    cases ha
    have hle := read_le hb
    unfold countLimit at hle
    simp only [Nat.pow_eq] at hle
    omega

/-- The duration bounds, when both are read, are refused only when out of order. -/
theorem durationBounds_eq {lo hi : String} {a b : Option ℕ} (ha : durationBound lo = some a)
    (hb : durationBound hi = some b) :
    durationBounds lo hi = if ∀ x ∈ a, ∀ y ∈ b, x ≤ y
      then .ok ((a.map secondsText).getD "", (b.map secondsText).getD "")
      else .error .lowerExceedsUpper := by
  cases a with
  | none => cases b <;> simp [durationBounds, ha, hb] <;> rfl
  | some x =>
    cases b with
    | none =>
      simp [durationBounds, ha, hb]
      rfl
    | some y =>
      simp only [durationBounds, ha, hb, Option.mem_def, Option.some.injEq, forall_eq']
      by_cases hxy : x ≤ y
      · rw [if_neg (by omega), if_pos hxy]
        rfl
      · rw [if_pos (by omega), if_neg hxy]
        rfl

theorem plain_of_isDigit {ch : Char} (h : ch.isDigit = true) : ch ≠ ' ' ∧ ch ≠ '"' ∧ ch ≠ '(' := by
  refine ⟨?_, ?_, ?_⟩ <;> rintro rfl <;> simp at h

theorem chars_getD_secondsText {o : Option ℕ} (h : ∀ a ∈ o, a < 2 ^ 64) :
    ∀ ch ∈ ((o.map secondsText).getD "").toList, ch ≠ ' ' ∧ ch ≠ '"' ∧ ch ≠ '(' := fun ch hch => by
  obtain ⟨a, ha, hch⟩ := mem_getD_map hch
  rcases mem_secondsText (h a ha) hch with hd | rfl
  · exact plain_of_isDigit hd
  · decide

theorem getD_secondsText_eq_empty {o : Option ℕ} (h : ∀ a ∈ o, a < 2 ^ 64) :
    (o.map secondsText).getD "" = "" ↔ o = none :=
  getD_map_eq_empty fun a ha => secondsText_ne_empty (h a ha)

theorem FieldTest.ofKey_duration (v : String) :
    FieldTest.ofKey FieldKey.duration.keyword v = .duration (NumericRange.ofText v) := rfl

/-- The duration bounds ask, when both are read and in order, that the clip's seconds lie within
the seconds of the bounds. -/
theorem writes_durationBounds_seconds (lo hi : String) (c : Clip) :
    Writes (rangeOption .duration (durationBounds lo hi)) c
      (∀ a b, durationBound lo = some a → durationBound hi = some b → (∀ x ∈ a, ∀ y ∈ b, x ≤ y) →
        (∀ x ∈ a, seconds x ≤ c.durationSecs) ∧ (∀ y ∈ b, c.durationSecs ≤ seconds y)) := by
  rcases ha : durationBound lo with _ | a
  · have hr : durationBounds lo hi = .error .invalidLowerBound := by
      simp [durationBounds, ha]
      rfl
    rw [hr]
    exact .none (by simp)
  rcases hb : durationBound hi with _ | b
  · have hr : durationBounds lo hi = .error .invalidUpperBound := by
      simp [durationBounds, ha, hb]
      rfl
    rw [hr]
    exact .none (by simp)
  have hla := lt_of_durationBound ha
  have hlb := lt_of_durationBound hb
  refine Writes.congr (P := (∀ x ∈ a, ∀ y ∈ b, x ≤ y) →
    (∀ x ∈ a, seconds x ≤ c.durationSecs) ∧ (∀ y ∈ b, c.durationSecs ≤ seconds y)) ?_ (by simp)
  rw [durationBounds_eq ha hb]
  split_ifs with hab
  · refine writes_rangeToken .duration (chars_getD_secondsText hla) (chars_getD_secondsText hlb)
      (fun _ => ?_) (fun hlo hhi => ?_)
    · rw [FieldTest.ofKey_duration]
      change (NumericRange.ofText _).holds (some c.durationSecs) = true ↔ _
      rw [holds_ofText_secondsText hla hlb]
      exact (imp_iff_right hab).symm
    · rw [(getD_secondsText_eq_empty hla).1 hlo, (getD_secondsText_eq_empty hlb).1 hhi]
      simp
  · exact .none fun h => absurd h hab

/-- The duration bounds ask, of a clip below the limit, when both are read and in order, that its
count lies within them. -/
theorem writes_durationBounds (lo hi : String) {c : Clip} (hc : c.durationMs < exactLimit) :
    Writes (rangeOption .duration (durationBounds lo hi)) c
      (∀ a b, durationBound lo = some a → durationBound hi = some b → (∀ x ∈ a, ∀ y ∈ b, x ≤ y) →
        (∀ x ∈ a, x ≤ c.durationMs) ∧ (∀ y ∈ b, c.durationMs ≤ y)) := by
  refine (writes_durationBounds_seconds lo hi c).congr ?_
  refine forall₄_congr fun a b ha hb => imp_congr_right fun _ => ?_
  rw [durationSecs_eq]
  exact seconds_bounds_iff (lt_of_durationBound ha) (lt_of_durationBound hb) hc

/-! ### Dates -/

def DateField.key : DateField → FieldKey
  | .concertDate => .date | .createdAt => .created | .updatedAt => .updated

theorem FieldTest.ofKey_date (t : DateField) (v : String) :
    FieldTest.ofKey t.key.keyword v = .date t (DateRange.ofText v) := by
  cases t <;> rfl

theorem chars_getD_slashText (o : Option Date) :
    ∀ ch ∈ ((o.map Date.slashText).getD "").toList, ch ≠ ' ' ∧ ch ≠ '"' ∧ ch ≠ '(' := fun ch hch => by
  obtain ⟨d, -, hch⟩ := mem_getD_map hch
  rcases mem_slashText hch with hd | rfl | rfl | rfl
  · exact plain_of_isDigit hd
  all_goals decide

theorem slashText_ne_empty (d : Date) : d.slashText ≠ "" := fun h => by
  have hne : d.slashText.toList ≠ [] := by simp [slashText_toList]
  exact hne (by rw [h]; rfl)

theorem getD_slashText_eq_empty (o : Option Date) :
    (o.map Date.slashText).getD "" = "" ↔ o = none :=
  getD_map_eq_empty fun d _ => slashText_ne_empty d

theorem readDate_getD_slashText {o : Option Date} (h : ∀ d ∈ o, d.valid = true) :
    readDate ((o.map Date.slashText).getD "") = o := by
  simpa using read_getD_map (r := id) readDate_empty fun d hd => readDate_slashText (h d hd)

theorem dash_not_mem_getD_slashText {o : Option Date} (h : ∀ d ∈ o, 0 ≤ d.year) :
    '-' ∉ ((o.map Date.slashText).getD "").toList := fun hc => by
  obtain ⟨d, hd, hc⟩ := mem_getD_map hc
  exact dash_not_mem_slashText (h d hd) hc

/-- The date bounds are refused only when the last day comes before the first. -/
theorem dateBounds_eq (lo hi : Option Date) :
    dateBounds lo hi = if ∀ a ∈ lo, ∀ b ∈ hi, ¬b < a
      then .ok ((lo.map Date.slashText).getD "", (hi.map Date.slashText).getD "")
      else .error .startAfterEnd := by
  cases lo with
  | none => cases hi <;> simp [dateBounds] <;> rfl
  | some a =>
    cases hi with
    | none =>
      simp [dateBounds]
      rfl
    | some b =>
      simp only [dateBounds, Option.mem_def, Option.some.injEq, forall_eq']
      -- `b < a` is `b.before a = true`
      by_cases hba : b < a
      · have hb : b.before a = true := hba
        rw [if_pos hb, if_neg (not_not.2 hba)]
        rfl
      · have hb : ¬b.before a = true := hba
        rw [if_neg hb, if_pos hba]
        rfl

/-- A date field asks, when the form's days are in order and one is set, that the clip's moment
is present and its date lies within them, for moments within their day that are no leap
seconds. -/
theorem writes_dateBounds (t : DateField) {lo hi : Option Date}
    (hlo : ∀ d ∈ lo, d.valid = true ∧ 0 ≤ d.year) (hhi : ∀ d ∈ hi, d.valid = true ∧ 0 ≤ d.year)
    {c : Clip} (hm : ∀ m ∈ t.get c, m.second < 86400 ∧ m.nano < 1000000000) :
    Writes (rangeOption t.key (dateBounds lo hi)) c
      ((∀ a ∈ lo, ∀ b ∈ hi, ¬b < a) → (lo.isSome ∨ hi.isSome) →
        ∃ m, t.get c = some m ∧ (∀ a ∈ lo, ¬m.date < a) ∧ (∀ b ∈ hi, ¬b < m.date)) := by
  rw [dateBounds_eq]
  split_ifs with hab
  · refine writes_rangeToken t.key (chars_getD_slashText lo) (chars_getD_slashText hi)
      (fun hset => ?_) (fun hl hh => ?_)
    · have hsome : lo.isSome ∨ hi.isSome := by
        by_contra hnone
        simp only [not_or, Option.not_isSome_iff_eq_none] at hnone
        exact hset ⟨by simp [hnone.1], by simp [hnone.2]⟩
      rw [FieldTest.ofKey_date, imp_iff_right hab, imp_iff_right hsome]
      change (DateRange.ofText _).holds (t.get c) = true ↔ _
      cases hget : t.get c with
      | none => simp [DateRange.holds_none]
      | some m =>
        obtain ⟨hsec, hnano⟩ := hm m hget
        rw [DateRange.holds_ofText_span (dash_not_mem_getD_slashText fun d hd => (hlo d hd).2) hsec,
          readDate_getD_slashText fun d hd => (hlo d hd).1,
          readDate_getD_slashText fun d hd => (hhi d hd).1]
        simp [hnano]
    · rw [(getD_slashText_eq_empty lo).1 hl, (getD_slashText_eq_empty hi).1 hh]
      simp
  · exact .none fun h => absurd h hab

/-! ## Selections -/

/-- Chosen values without `)`, a line feed or ` OR ` ask, when any is chosen, that the key's test
holds for one of them. -/
theorem writes_selectionToken (key : FieldKey) {values : List String}
    (hv : ∀ v ∈ values, ')' ∉ v.toList ∧ '\n' ∉ v.toList ∧ ¬" OR ".toList <:+: v.toList)
    {c : Clip} {P : Prop}
    (hP : values ≠ [] → ((values.any fun v => (FieldTest.ofKey key.keyword v).accepts c) = true ↔ P))
    (hempty : values = [] → P) : Writes (selectionToken key values) c P := by
  cases h : selectionToken key values with
  | none =>
    have hnil : values = [] := by
      unfold selectionToken at h
      split at h
      · next he => simpa using he
      · cases h
    exact .none (hempty hnil)
  | some w =>
    have hne : values ≠ [] := by
      rintro rfl
      cases h
    obtain ⟨hw, hacc⟩ := selectionToken_spec key hv h
    exact ⟨fun _ hw' => by cases hw'; exact hw, fun s => by rw [Option.all_some, hacc s c]; exact hP hne⟩

theorem Brand.label_plain (b : Brand) :
    ')' ∉ b.label.toList ∧ '\n' ∉ b.label.toList ∧ ¬" OR ".toList <:+: b.label.toList := by
  cases b <;> decide +kernel

theorem FieldTest.ofKey_brands (v : String) :
    FieldTest.ofKey FieldKey.brands.keyword v = .brands (lower v) := rfl

/-- The chosen brands ask, when any is chosen, that the clip has one of them. -/
theorem writes_brands (s : BrandSet) (c : Clip) :
    Writes (selectionToken .brands s.labels) c
      ((∃ b, s.has b = true) → ∃ b, s.has b = true ∧ c.brands.has b = true) := by
  have hmem : ∀ b, b ∈ s.members ↔ s.has b = true := fun b => by
    simp [BrandSet.members, b.mem_all]
  refine writes_selectionToken .brands ?_ (fun hne => ?_) (fun hnil => ?_)
  · simp only [BrandSet.labels, List.mem_map]
    rintro _ ⟨b, -, rfl⟩
    exact Brand.label_plain b
  · have hsome : ∃ b, s.has b = true := by
      obtain ⟨v, hv⟩ := List.exists_mem_of_ne_nil _ hne
      obtain ⟨b, hb, -⟩ := List.mem_map.1 hv
      exact ⟨b, (hmem b).1 hb⟩
    rw [imp_iff_right hsome, BrandSet.labels, List.any_map]
    simp [Function.comp_def, FieldTest.ofKey_brands, FieldTest.accepts, containsLowered_display_label,
      hmem]
  · rintro ⟨b, hb⟩
    have hlabel : b.label ∈ s.labels := List.mem_map.2 ⟨b, (hmem b).2 hb, rfl⟩
    rw [hnil] at hlabel
    cases hlabel

theorem LiveType.label_plain (t : LiveType) :
    ')' ∉ t.label.toList ∧ '\n' ∉ t.label.toList ∧ ¬" OR ".toList <:+: t.label.toList := by
  cases t <;> decide +kernel

theorem LiveType.mem_all (t : LiveType) : t ∈ LiveType.all := by
  cases t <;> decide

theorem FieldTest.ofKey_type (v : String) :
    FieldTest.ofKey FieldKey.type.keyword v = .liveType (lower v) := rfl

/-- The chosen live types ask, when any is chosen, that the clip's is one of them. -/
theorem writes_liveTypes (ts : List LiveType) (c : Clip) :
    Writes (selectionToken .type ((LiveType.all.filter fun t => ts.contains t).map LiveType.label)) c
      (ts ≠ [] → c.liveType ∈ ts) := by
  have hmem : ∀ t, t ∈ LiveType.all.filter (fun t => ts.contains t) ↔ t ∈ ts := fun t => by
    simp [LiveType.mem_all t]
  refine writes_selectionToken .type ?_ (fun hne => ?_) (fun hnil hts => ?_)
  · simp only [List.mem_map]
    rintro _ ⟨t, -, rfl⟩
    exact LiveType.label_plain t
  · have hts : ts ≠ [] := by
      rintro rfl
      exact hne rfl
    rw [imp_iff_right hts, List.any_map]
    simp [Function.comp_def, FieldTest.ofKey_type, FieldTest.accepts, containsLowered_liveType_label,
      LiveType.mem_all c.liveType]
  · obtain ⟨t, ht⟩ := List.exists_mem_of_ne_nil _ hts
    have hlabel : t.label ∈ (LiveType.all.filter fun t => ts.contains t).map LiveType.label :=
      List.mem_map.2 ⟨t, (hmem t).2 ht, rfl⟩
    rw [hnil] at hlabel
    cases hlabel

theorem FieldTest.ofKey_performers (v : String) :
    FieldTest.ofKey FieldKey.performers.keyword v = .performers (lower v) := rfl

/-- Performers given without `)`, a line feed or ` OR ` ask, when any is given, that a performer
of the clip has one of them in the name or reading, case-blind. -/
theorem writes_performers {vs : List String}
    (hv : ∀ v ∈ vs, ')' ∉ v.toList ∧ '\n' ∉ v.toList ∧ ¬" OR ".toList <:+: v.toList) (c : Clip) :
    Writes (selectionToken .performers vs) c
      (vs ≠ [] → ∃ v ∈ vs, ∃ p ∈ c.performers,
        (lower v).toList <:+: (lower p.name).toList ∨ (lower v).toList <:+: (lower p.reading).toList) := by
  refine writes_selectionToken .performers hv (fun hne => ?_) (fun hnil h => absurd hnil h)
  rw [imp_iff_right hne]
  simp [FieldTest.ofKey_performers, FieldTest.accepts, anyPerformerHas, containsLowered_eq_true_iff]

/-! ## The form -/

def TextField.all : List TextField :=
  [.filePath, .clipName, .songTitle, .concertName, .lyrics, .remarks]

theorem TextField.mem_all (t : TextField) : t ∈ TextField.all := by
  cases t <;> decide

def DateField.all : List DateField := [.concertDate, .createdAt, .updatedAt]

theorem DateField.mem_all (t : DateField) : t ∈ DateField.all := by
  cases t <;> decide

namespace Form

def textOf (f : Form) : TextField → String
  | .filePath => f.path | .clipName => f.clipName | .songTitle => f.songTitle
  | .concertName => f.concertName | .lyrics => f.lyrics | .remarks => f.remarks

def daysOf (f : Form) : DateField → Option Date × Option Date
  | .concertDate => (f.concertDateFrom, f.concertDateTo)
  | .createdAt => (f.createdFrom, f.createdTo)
  | .updatedAt => (f.updatedFrom, f.updatedTo)

/-- The tokens a form writes, filled or not, in order. -/
def tokens (f : Form) : List (Option String) :=
  TextField.all.map (fun t => textToken t.key (f.textOf t)) ++
    rangeOption .duration (durationBounds f.minDuration f.maxDuration) ::
      (DateField.all.map (fun t => rangeOption t.key (dateBounds (f.daysOf t).1 (f.daysOf t).2)) ++
        [selectionToken .brands f.brands.labels,
          selectionToken .type ((LiveType.all.filter fun t => f.liveTypes.contains t).map LiveType.label),
          selectionToken .performers f.performers])

/-- The query of a form is its filled tokens joined by spaces. -/
theorem build_query (f : Form) : f.build.query = " ".intercalate (f.tokens.filterMap id) := by
  simp only [build, tokens, TextField.all, DateField.all, List.map_cons, List.map_nil,
    List.cons_append, List.nil_append, TextField.key, DateField.key, textOf, daysOf]
  -- the four ranges are read apart from the rest
  split <;> split <;> split <;> split <;> simp only [*, rangeOption]

/-- A form a query can carry: text fields without a quote or a line feed, valid days from the
year 0 on, and performers without `)`, a line feed or ` OR `. -/
structure Writable (f : Form) : Prop where
  text : ∀ t, '"' ∉ (f.textOf t).toList ∧ '\n' ∉ (f.textOf t).toList
  days : ∀ t, (∀ d ∈ (f.daysOf t).1, d.valid = true ∧ 0 ≤ d.year) ∧
    (∀ d ∈ (f.daysOf t).2, d.valid = true ∧ 0 ≤ d.year)
  performers : ∀ v ∈ f.performers, ')' ∉ v.toList ∧ '\n' ∉ v.toList ∧ ¬" OR ".toList <:+: v.toList

/-- What a form asks of a clip: each filled text field is in the clip's field, case-blind; the
duration lies within the bounds read and each date field's date within the days given, unless
the form refuses those bounds; and the clip has one of the brands, one of the live types and a
performer with one of the names that the form chooses. -/
structure Satisfies (f : Form) (c : Clip) : Prop where
  text : ∀ t, (trim (f.textOf t)).isEmpty = false →
    ∃ s, t.get c = some s ∧ (lower (f.textOf t)).toList <:+: (lower s).toList
  duration : ∀ lo hi, durationBound f.minDuration = some lo → durationBound f.maxDuration = some hi →
    (∀ a ∈ lo, ∀ b ∈ hi, a ≤ b) → (∀ a ∈ lo, a ≤ c.durationMs) ∧ (∀ b ∈ hi, c.durationMs ≤ b)
  days : ∀ t, (∀ a ∈ (f.daysOf t).1, ∀ b ∈ (f.daysOf t).2, ¬b < a) →
    ((f.daysOf t).1.isSome ∨ (f.daysOf t).2.isSome) →
    ∃ m, t.get c = some m ∧ (∀ a ∈ (f.daysOf t).1, ¬m.date < a) ∧ (∀ b ∈ (f.daysOf t).2, ¬b < m.date)
  brands : (∃ b, f.brands.has b = true) → ∃ b, f.brands.has b = true ∧ c.brands.has b = true
  liveType : f.liveTypes ≠ [] → c.liveType ∈ f.liveTypes
  performers : f.performers ≠ [] → ∃ v ∈ f.performers, ∃ p ∈ c.performers,
    (lower v).toList <:+: (lower p.name).toList ∨ (lower v).toList <:+: (lower p.reading).toList

/-- The tokens of a writable form ask for what each field asks, the duration token for `D`, of a
clip whose moments lie within their day and are no leap seconds. -/
theorem writesAll_tokens {f : Form} (hf : f.Writable) {c : Clip}
    (hm : ∀ t : DateField, ∀ m ∈ t.get c, m.second < 86400 ∧ m.nano < 1000000000) {D : Prop}
    (hD : Writes (rangeOption .duration (durationBounds f.minDuration f.maxDuration)) c D) :
    WritesAll f.tokens c
      ((∀ t ∈ TextField.all, (trim (f.textOf t)).isEmpty = false →
          ∃ s, t.get c = some s ∧ (lower (f.textOf t)).toList <:+: (lower s).toList) ∧ D ∧
        (∀ t ∈ DateField.all, (∀ a ∈ (f.daysOf t).1, ∀ b ∈ (f.daysOf t).2, ¬b < a) →
          ((f.daysOf t).1.isSome ∨ (f.daysOf t).2.isSome) →
          ∃ m, t.get c = some m ∧ (∀ a ∈ (f.daysOf t).1, ¬m.date < a) ∧
            (∀ b ∈ (f.daysOf t).2, ¬b < m.date)) ∧
        ((∃ b, f.brands.has b = true) → ∃ b, f.brands.has b = true ∧ c.brands.has b = true) ∧
        (f.liveTypes ≠ [] → c.liveType ∈ f.liveTypes) ∧
        (f.performers ≠ [] → ∃ v ∈ f.performers, ∃ p ∈ c.performers,
          (lower v).toList <:+: (lower p.name).toList ∨
            (lower v).toList <:+: (lower p.reading).toList)) := by
  have htexts := WritesAll.map fun t (_ : t ∈ TextField.all) =>
    writes_textToken t (hf.text t).1 (hf.text t).2 c
  have hdates := WritesAll.map fun t (_ : t ∈ DateField.all) =>
    writes_dateBounds t (hf.days t).1 (hf.days t).2 (hm t)
  exact htexts.append (hD.cons (hdates.append ((writes_brands f.brands c).cons
    ((writes_liveTypes f.liveTypes c).cons (writes_performers hf.performers c).single))))

end Form

end ClipSearch.Query

namespace ClipSearch.Catalog

/-- A clip whose duration is below `2^43` seconds and whose moments lie within their day, none of
them a leap second. -/
structure Clip.Ordinary (c : Clip) : Prop where
  duration : c.durationMs < Duration.exactLimit
  moments : ∀ t : Query.DateField, ∀ m ∈ t.get c, m.second < 86400 ∧ m.nano < 1000000000

end ClipSearch.Catalog

namespace ClipSearch.Query

open ClipSearch.Catalog ClipSearch.Calendar ClipSearch.Text ClipSearch.Duration
  ClipSearch.Decimal ClipSearch.Decimal.Binary

/-! ## The form read back -/

/-- The query written from a form a query can carry holds of a clip below `2^43` seconds without
leap seconds exactly when the clip has what the form asks. -/
theorem Form.accepts_build_iff {f : Form} (hf : f.Writable) {c : Clip} (hc : c.Ordinary)
    (s : Settings) : (compile f.build.query s).accepts c = true ↔ f.Satisfies c := by
  rw [f.build_query,
    (f.writesAll_tokens hf hc.moments (writes_durationBounds _ _ hc.duration)).compile_accepts s]
  constructor
  · rintro ⟨htext, hduration, hdays, hbrands, hlive, hperformers⟩
    exact ⟨fun t => htext t (TextField.mem_all t), hduration, fun t => hdays t (DateField.mem_all t),
      hbrands, hlive, hperformers⟩
  · intro h
    exact ⟨fun t _ => h.text t, h.duration, fun t _ => h.days t, h.brands, h.liveType, h.performers⟩

/-- A form of a path, a lower duration bound typed as minutes and seconds, a first concert day and
a performer, and a clip that has them all: the query holds of it. -/
theorem Form.accepts_build_iff_sample_form :
    let f : Form :=
      { path := "live", minDuration := "3:00", concertDateFrom := some ⟨2024, 5, 1⟩,
        performers := ["Aoi"] }
    let c : Clip :=
      { filePath := some "/videos/Live/aoi.mp4", durationMs := 200000,
        concertDate := some ⟨⟨2024, 6, 1⟩, 72000, 0⟩, performers := [{ name := "Aoi" }] }
    f.Writable ∧ c.Ordinary ∧ f.Satisfies c ∧ (compile f.build.query {}).accepts c = true := by
  intro f c
  have hf : f.Writable :=
    ⟨fun t => by cases t <;> decide +kernel,
      fun t => by
        cases t <;> simp [f, Form.daysOf, Date.valid, Date.daysInMonth, Date.minYear, Date.maxYear],
      by simp [f]; decide +kernel⟩
  have hc : c.Ordinary := ⟨by decide, fun t m hm => by cases t <;> cases hm; decide⟩
  -- `3:00` reads as `00:3:00` does, and that as three minutes
  have hread : read "3:00" = some 180000 := by
    have htyped := read_minutesSeconds_eq_read_clock (m := "3") (s := "00") (f := "") (by decide)
      (List.all_eq_true.1 rfl) (by decide) (by decide) (List.all_eq_true.1 rfl) (by decide)
      (List.forall_mem_nil _) (by decide) (by decide)
    have hclock := read_clock (h := ['0', '0']) (m := ['3']) (s := ['0', '0']) (f := []) (by simp)
      (List.all_eq_true.1 rfl) (by decide) (by simp) (List.all_eq_true.1 rfl) (by decide) (by simp)
      (List.all_eq_true.1 rfl) (by decide) (List.forall_mem_nil _) (by decide)
    have htext : "3" ++ ":" ++ withFraction "00" "" = "3:00" := by simp [withFraction]
    rw [clock_text, htext] at htyped
    rw [htyped]
    exact hclock
  have hsat : f.Satisfies c := by
    refine ⟨fun t h => ?_, fun lo hi hlo hhi _ => ?_, fun t _ h => ?_, ?_, fun h => absurd rfl h,
      fun _ => ⟨"Aoi", by simp [f], { name := "Aoi" }, by simp [c], .inl (by decide +kernel)⟩⟩
    · cases t
      · exact ⟨"/videos/Live/aoi.mp4", rfl, by decide +kernel⟩
      all_goals exact absurd h (by decide)
    · have hne : (trim "3:00").isEmpty = false := by decide
      have hmin : durationBound "3:00" = some (some 180000) := by simp [durationBound, hne, hread]
      have hopen : durationBound "" = some none := by decide
      change durationBound "3:00" = some lo at hlo
      change durationBound "" = some hi at hhi
      rw [hmin, Option.some.injEq] at hlo
      rw [hopen, Option.some.injEq] at hhi
      subst hlo hhi
      exact ⟨fun a ha => by cases ha; decide, fun b hb => absurd hb (Option.not_mem_none b)⟩
    · cases t
      · exact ⟨⟨⟨2024, 6, 1⟩, 72000, 0⟩, rfl, by simp [Form.daysOf, f]; decide,
          by simp [Form.daysOf, f]⟩
      all_goals simp [Form.daysOf, f] at h
    · rintro ⟨b, hb⟩
      exact absurd hb (by cases b <;> decide)
  exact ⟨hf, hc, hsat, (Form.accepts_build_iff hf hc {}).2 hsat⟩

/-! ## Past the limit -/

/-- Past the limit a count and the next can share their seconds: `17279999999999999` is odd, lies
halfway between two doubles, which are two apart above `2^53`, and rounds to the even
significand, the double of `17280000000000000`. -/
theorem seconds_halfway_past_limit : seconds 17279999999999999 = seconds 17280000000000000 := by
  unfold seconds
  rw [ofDecimal_count_eq_ofRounded (E := 1) (k := 8640000000000000) (by norm_num)
      (by norm_num [StoredAt]) (by norm_num [RoundsTo]),
    ofDecimal_count_eq_ofRounded (E := 1) (k := 8640000000000000) (by norm_num)
      (by norm_num [StoredAt]) (by norm_num [RoundsTo])]

/-- A lower bound of 200,000,000 days, `17280000000000000` ms, holds a clip a millisecond shorter:
past `2^43` seconds the two counts share their seconds. -/
theorem duration_bound_merges_past_limit :
    (compile (Form.build { minDuration := "200000000" }).query {}).accepts
        { durationMs := 17279999999999999 } = true ∧
      ¬Form.Satisfies { minDuration := "200000000" } { durationMs := 17279999999999999 } := by
  have hread : durationBound "200000000" = some (some 17280000000000000) := by
    have htext : "200000000" = String.ofList "200000000".toList := by simp
    have hr : read "200000000" = some 17280000000000000 := by
      rw [htext, read_dayCount (by decide) (List.all_eq_true.1 rfl), if_pos (by decide)]
      rfl
    have hne : (trim "200000000").isEmpty = false := by decide
    simp [durationBound, hne, hr]
  have hopen : durationBound "" = some none := by decide
  refine ⟨?_, fun h => ?_⟩
  · have hf : Form.Writable { minDuration := "200000000" } :=
      ⟨fun t => by cases t <;> simp [Form.textOf], fun t => by cases t <;> simp [Form.daysOf], by simp⟩
    rw [Form.build_query, (Form.writesAll_tokens hf (fun t m hm => by cases t <;> cases hm)
      (writes_durationBounds_seconds _ _ _)).compile_accepts]
    refine ⟨fun t _ h => ?_, fun a b ha hb _ => ?_, fun t _ _ h => ?_, ?_, fun h => absurd rfl h,
      fun h => absurd rfl h⟩
    · cases t <;> exact absurd h (by decide)
    · rw [hread] at ha
      rw [hopen] at hb
      cases ha
      cases hb
      refine ⟨fun x hx => ?_, fun y hy => absurd hy (Option.not_mem_none y)⟩
      cases hx
      rw [durationSecs_eq]
      show seconds 17280000000000000 ≤ seconds 17279999999999999
      rw [seconds_halfway_past_limit]
      exact seconds_le_self (by norm_num)
    · cases t <;> simp [Form.daysOf] at h
    · rintro ⟨b, hb⟩
      exact absurd hb (by cases b <;> decide)
  · have hle := (h.duration _ _ hread hopen (by simp)).1 17280000000000000 rfl
    exact absurd hle (by decide)

end ClipSearch.Query
