import ClipSearch.Proofs.Layout
import ClipSearch.Proofs.RecordValues
import ClipSearch.Catalog.Load
/-!
# Catalogs read back

A clip is written as the object of its fourteen fields in declaration order (`Clip.toValue`),
compact or pretty (`Layout`). Read back, every clip that the fields can hold comes back whole,
but for the fractions of a second of its dates (`readClip_written`), and so does every list of
them from the array of their objects (`readClips_written`).

A record is read entry by entry: each entry's key names a field not seen before and its value
updates the record read so far (`EntriesFit`, `entriesText_written`); arrays of records are read
item by item one level deeper (`recordArray_items`). Every field's reader skips blanks first
(`Clip.skipsBlanks_readField`), so the blanks a layout puts between a colon and a value do not
matter.
-/
namespace ClipSearch.Catalog

open ClipSearch.Json ClipSearch.Json.Scan ClipSearch.Calendar ClipSearch.Text ClipSearch.Decimal

/-! ## What a clip can hold -/

/-- A clip whose fields can all be stored: an id of 64 signed bits, a duration of 64 bits,
dates that a date and time can hold, and brands of the ten brand bits only. -/
structure Clip.Storable (c : Clip) : Prop where
  id_ge : -(2 ^ 63 : Int) ≤ c.id
  id_lt : c.id < 2 ^ 63
  duration_le : c.durationMs ≤ u64Max
  concertDate : ∀ m ∈ c.concertDate, m.WellFormed
  createdAt : ∀ m ∈ c.createdAt, m.WellFormed
  updatedAt : ∀ m ∈ c.updatedAt, m.WellFormed
  brands : c.brands.bits < 2 ^ 10

/-- The clip with the fraction of a second dropped from each of its dates. -/
def Clip.wholeSeconds (c : Clip) : Clip :=
  { c with
    concertDate := c.concertDate.map Moment.wholeSecond
    createdAt := c.createdAt.map Moment.wholeSecond
    updatedAt := c.updatedAt.map Moment.wholeSecond }

/-! ## Field values -/

section Fields

variable {depth : Nat}

theorem compact_nat_toList (n : Nat) : (compact (.number (.nat n))).toList = Nat.toDigits 10 n := by
  simp [compact, Number.text, Nat.repr]

theorem compact_neg_toList {n : Nat} (hn : 0 < n) :
    (compact (.number (.neg (-(n : Int))))).toList = '-' :: Nat.toDigits 10 n := by
  obtain ⟨k, rfl⟩ : ∃ k, n = k + 1 := ⟨n - 1, by omega⟩
  have hneg : -((k + 1 : Nat) : Int) = Int.negSucc k := rfl
  simp only [compact, Number.text, hneg]
  simp [Int.repr]

theorem compact_string_toList (s : String) : (compact (.string s)).toList = (quote s).toList := by
  rw [compact]

theorem toDigits_head (n : Nat) :
    ∃ d ds, Nat.toDigits 10 n = d :: ds ∧ d.isDigit = true := by
  obtain ⟨d, ds, h⟩ := List.exists_cons_of_ne_nil (@Nat.toDigits_ne_nil n 10)
  exact ⟨d, ds, h, isDigit_of_mem_toDigits (h ▸ List.mem_cons_self)⟩

theorem isBlankChar_of_isDigit {ch : Char} (h : ch.isDigit = true) : isBlankChar ch = false := by
  simp only [Char.isDigit, Bool.and_eq_true, decide_eq_true_eq] at h
  have h1 : 48 ≤ ch.toNat := h.1
  simp only [isBlankChar, Bool.or_eq_false_iff, beq_eq_false_iff_ne, ne_eq]
  refine ⟨⟨⟨?_, ?_⟩, ?_⟩, ?_⟩ <;> intro he <;> rw [he] at h1 <;> simp at h1

/-- A number that fits 64 bits reads back from its digits, and `visit` judges it. -/
theorem numberText_nat {α : Type} {expected : String} {visit : Number → Scan α} {n : Nat} {a : α}
    (hn : n ≤ u64Max) (hvisit : visit (.nat n) = pure a) :
    ReadsAt (numberText expected visit) a (Nat.toDigits 10 n) depth := by
  intro c rest hc hend _ _
  obtain ⟨d, ds, hds, hdig⟩ := toDigits_head n
  have hc' : c.rest = d :: (ds ++ rest) := by rw [hc, hds, List.cons_append]
  unfold numberText
  refine Gives.settle ?_
  refine (skipBlank_bind _ (by simp [hc', isBlankChar_of_isDigit hdig])).trans
    fun c1 h1 _ hd1 => ?_
  simp only [hc', List.head?_cons]
  split
  · next heq => exact absurd heq (Option.some_ne_none d)
  · next heq => exact absurd (Option.some.inj heq ▸ hdig) (by decide)
  · next _ ch _ heq =>
    cases Option.some.inj heq
    rw [if_pos hdig]
    refine (integer_nat hn (h1.trans hc) hend).bind.trans fun c2 h2 _ hd2 => ?_
    rw [hvisit]
    exact Leads.stay _ h2 (hd2.trans hd1)

/-- A minus sign and the digits of a number from 1 to `2 ^ 63` read back as its negation, and
`visit` judges it. -/
theorem numberText_neg {α : Type} {expected : String} {visit : Number → Scan α} {k : Nat} {a : α}
    (hk : 0 < k) (hk' : k ≤ 2 ^ 63) (hvisit : visit (.neg (-(k : Int))) = pure a) :
    ReadsAt (numberText expected visit) a ('-' :: Nat.toDigits 10 k) depth := by
  intro c rest hc hend _ _
  unfold numberText
  refine Gives.settle ?_
  refine (skipBlank_bind _ (by simp [hc, isBlankChar])).trans fun c1 h1 _ hd1 => ?_
  simp only [hc, List.cons_append, List.head?_cons]
  refine (eat_bind _ (h1.trans hc)).trans fun c2 h2 _ hd2 => ?_
  refine (integer_neg hk hk' h2 hend).bind.trans fun c3 h3 _ hd3 => ?_
  rw [hvisit]
  exact Leads.stay _ h3 (hd3.trans (hd2.trans hd1))

/-- A signed integer of 64 bits reads back from its digits, after a minus sign if it is
negative. -/
theorem int64Text_intValue {n : Int} (hlo : -(2 ^ 63 : Int) ≤ n) (hhi : n < 2 ^ 63) :
    ReadsAt int64Text n (compact (intValue n)).toList depth := by
  by_cases hpos : 0 ≤ n
  · -- a number from 0 on is its digits alone
    obtain ⟨k, rfl⟩ := Int.eq_ofNat_of_zero_le hpos
    have hk : k ≤ i64Max := by simp [i64Max] at hhi ⊢; omega
    have htext : (compact (intValue k)).toList = Nat.toDigits 10 k := by
      simp [intValue, compact_nat_toList]
    rw [htext]
    exact numberText_nat (le_trans hk (by decide)) (by simp only [hk, if_true])
  · -- a negative number is a minus sign and the digits of its size
    obtain ⟨k, hk, rfl⟩ : ∃ k : Nat, 0 < k ∧ n = -(k : Int) := ⟨n.natAbs, by omega, by omega⟩
    rw [intValue, if_neg hpos, compact_neg_toList hk]
    exact numberText_neg hk (by omega) rfl

/-- A duration of 64 bits reads back from its digits. -/
theorem countText_nat {n : Nat} (hn : n ≤ u64Max) :
    ReadsAt countText n (compact (.number (.nat n))).toList depth := by
  rw [compact_nat_toList]
  exact numberText_nat hn rfl

theorem textText_quote (s : String) : ReadsAt textText s (quote s).toList depth := by
  intro c rest hc _ hb _
  have hhead : c.rest.head? = some '"' := by simp [hc, quote_toList]
  unfold textText
  refine Gives.settle ?_
  refine (skipBlank_bind _ (by simp [hhead, isBlankChar])).trans fun c1 h1 hb1 hd1 => ?_
  simp only [hhead]
  rw [← hd1]
  have h := eat_string_bind Pure.pure (h1.trans hc) (by rw [h1, hb1]; exact hb)
  simpa only [bind_pure] using h

/-- A text or `null` reads back as written. -/
theorem optTextText_value (o : Option String) :
    ReadsAt optTextText o (compact (optTextValue o)).toList depth := by
  intro c rest hc hend hb hd
  unfold optTextText
  cases o with
  | none =>
    have hc' : c.rest = 'n' :: ("ull".toList ++ rest) := by rw [hc, optTextValue, compact]; rfl
    refine (skipBlank_bind _ (by simp [hc', isBlankChar])).trans fun c1 h1 _ hd1 => ?_
    simp only [hc', List.head?_cons]
    refine (eat_bind _ (h1.trans hc')).trans fun c2 h2 _ hd2 => ?_
    rw [← hd1, ← hd2]
    exact (word_gives h2).seq_pure _
  | some s =>
    rw [optTextValue, compact_string_toList] at hc
    have hhead : c.rest.head? = some '"' := by simp [hc, quote_toList]
    refine (skipBlank_bind _ (by simp [hhead, isBlankChar])).trans fun c1 h1 hb1 hd1 => ?_
    simp only [hhead]
    rw [← hd1, map_eq_pure_bind]
    exact (textText_quote s c1 rest (h1.trans hc) hend (by rw [h1, hb1]; exact hb) rfl).map_pure some

/-- A lenient field reads its value whole and keeps what the judge makes of it. -/
theorem lenientText_of {α : Type} {fuel : Nat} {judge : Value → Except LenientError α} {v : Value}
    {a : α} {t : List Char} (hv : ReadsAt (value fuel) v t depth) (hj : judge v = .ok a) :
    ReadsAt (lenientText fuel judge) a t depth := by
  intro c rest hc hend hb hd
  unfold lenientText
  refine (hv c rest hc hend hb hd).bind.trans fun c1 h1 _ hd1 => ?_
  simp only [hj]
  exact Leads.stay _ h1 hd1

/-- A date field reads back to the second. -/
theorem lenientText_moment {fuel : Nat} {o : Option Moment} (h : ∀ m ∈ o, m.WellFormed) :
    ReadsAt (lenientText (fuel + 1) dateOfValue) (o.map Moment.wholeSecond)
      (compact (momentValue o)).toList depth := by
  refine lenientText_of ?_ (dateOfValue_momentValue h)
  cases o with
  | none =>
    rw [momentValue, compact]
    exact value_null fuel depth
  | some m =>
    rw [momentValue, compact_string_toList]
    exact value_string fuel depth m.recordText

/-- Brands of the ten brand bits read back from the array of their labels, in either layout. -/
theorem lenientText_brands (lay : Layout) {fuel : Nat} {s : BrandSet} (hs : s.bits < 2 ^ 10)
    (hdepth : 1 < depth) (hfuel : s.labels.length < fuel) :
    ReadsAt (lenientText (fuel + 1) brandsOfValue) s (lay.text (.array (s.labels.map .string)))
      depth :=
  lenientText_of (Layout.value_strings lay hdepth hfuel) (brandsOfValue_labels hs)

theorem liveTypeText_name (t : LiveType) : ReadsAt liveTypeText t (quote t.name).toList depth := by
  intro c rest hc _ hb _
  have hhead : c.rest.head? = some '"' := by simp [hc, quote_toList]
  unfold liveTypeText
  refine (skipBlank_bind _ (by simp [hhead, isBlankChar])).trans fun c1 h1 hb1 hd1 => ?_
  simp only [hhead]
  unfold liveTypeNameText
  rw [← hd1]
  refine Gives.settle ?_
  refine (skipBlank_bind _ (by simp [h1, hhead, isBlankChar])).trans fun c2 h2 hb2 hd2 => ?_
  simp only [h1, hhead]
  rw [← hd2]
  refine (eat_string_bind _ (h2.trans (h1.trans hc))
    (by rw [h2, h1, hb2, hb1]; exact hb)).trans fun c3 h3 _ hd3 => ?_
  simp only [LiveType.ofName?_name]
  exact Leads.stay _ h3 hd3

/-! Each field's value starts with something other than a blank, which its reader looks for
after skipping blanks. -/

theorem startsItem_digits (n : Nat) : StartsItem (Nat.toDigits 10 n) := by
  obtain ⟨d, ds, hds, hdig⟩ := toDigits_head n
  refine ⟨d, ds, hds, isBlankChar_of_isDigit hdig, ?_⟩
  rintro rfl
  exact absurd hdig (by decide)

theorem startsItem_nat (n : Nat) : StartsItem (compact (.number (.nat n))).toList := by
  rw [compact_nat_toList]
  exact startsItem_digits n

theorem startsItem_intValue (n : Int) : StartsItem (compact (intValue n)).toList := by
  by_cases hpos : 0 ≤ n
  · rw [intValue, if_pos hpos, compact_nat_toList]
    exact startsItem_digits _
  · obtain ⟨k, hk, rfl⟩ : ∃ k : Nat, 0 < k ∧ n = -(k : Int) := ⟨n.natAbs, by omega, by omega⟩
    rw [intValue, if_neg hpos, compact_neg_toList hk]
    exact ⟨'-', _, rfl, by decide, by decide⟩

theorem startsItem_optTextValue (o : Option String) : StartsItem (compact (optTextValue o)).toList := by
  cases o with
  | none =>
    rw [optTextValue, compact]
    exact ⟨'n', "ull".toList, rfl, by decide, by decide⟩
  | some s =>
    rw [optTextValue, compact_string_toList]
    exact Layout.startsItem_quote s

theorem startsItem_momentValue (o : Option Moment) : StartsItem (compact (momentValue o)).toList := by
  cases o with
  | none =>
    rw [momentValue, compact]
    exact ⟨'n', "ull".toList, rfl, by decide, by decide⟩
  | some m =>
    rw [momentValue, compact_string_toList]
    exact Layout.startsItem_quote _

theorem skipsBlanks_numberText {α : Type} (expected : String) (visit : Number → Scan α) :
    SkipsBlanks (numberText expected visit) := by
  unfold numberText
  exact (skipsBlanks_skipBlank_bind _).settle

theorem skipsBlanks_textText : SkipsBlanks textText := by
  unfold textText
  exact (skipsBlanks_skipBlank_bind _).settle

theorem skipsBlanks_optTextText : SkipsBlanks optTextText := by
  unfold optTextText
  exact skipsBlanks_skipBlank_bind _

theorem skipsBlanks_liveTypeText : SkipsBlanks liveTypeText := by
  unfold liveTypeText
  exact skipsBlanks_skipBlank_bind _

theorem skipsBlanks_lenientText {α : Type} (fuel : Nat) (judge : Value → Except LenientError α) :
    SkipsBlanks (lenientText (fuel + 1) judge) := by
  unfold lenientText
  rw [value]
  exact (skipsBlanks_skipBlank_bind _).bind _

end Fields

/-! ## Records -/

section Records

variable {σ : Type} {depth : Nat}

/-- An object read as a record: `byMap` reads its body, one level deeper, up to the closing
brace. -/
theorem recordText_object {α : Type} {name : String} {bySeq byMap : Scan α} {r : α}
    {body : List Char} (hdepth : 1 < depth)
    (hmap : ∀ (c : Cursor) (rest : List Char), c.rest = body ++ '}' :: rest →
      c.rest.length < c.budget → c.depth = depth - 1 → Gives byMap c r ('}' :: rest)) :
    ReadsAt (recordText name bySeq byMap) r ('{' :: (body ++ ['}'])) depth := by
  intro c rest hc _ hb hd
  rw [List.cons_append, List.append_assoc, List.singleton_append] at hc
  unfold recordText
  refine Gives.settle ?_
  refine (skipBlank_bind _ (by simp [hc, isBlankChar])).trans fun c1 h1 hb1 hd1 => ?_
  simp only [hc, List.head?_cons]
  refine (enter_bind _ (by omega)).trans fun c2 h2 hb2 hd2 => ?_
  refine (eat_bind _ (h2.trans (h1.trans hc))).trans fun c3 h3 hb3 hd3 => ?_
  have hlen := lt_budget_of_suffix (by rw [h3, hc]; simp) (hb3.trans (hb2.trans hb1)) hb
  have hbody := hmap c3 rest h3 hlen (by omega)
  refine (hbody.closing fun c' hr _ _ => endObject_gives hr).bind.trans fun c4 h4 _ hd4 => ?_
  refine (leave_bind _ c4).trans fun c5 h5 _ hd5 => ?_
  exact Leads.stay _ (h5.trans h4) (by omega)

/-- An entry of a record as written: its key, the position of the key among the record's field
names, the text of its value, and what reading the value makes of the record read so far. -/
structure WrittenEntry (σ : Type) where
  key : String
  index : Nat
  text : List Char
  update : σ → σ

/-- The text of an entry: its quoted key, a colon, the blanks of the gap and its value. -/
def WrittenEntry.line (gap : List Char) (e : WrittenEntry σ) : List Char :=
  (quote e.key).toList ++ ':' :: (gap ++ e.text)

theorem lt_length_of_fieldIndex {names : List String} {k : String} {i : Nat}
    (h : fieldIndex? names k = some i) : i < names.length :=
  (List.idxOf?_eq_some_iff.1 h).1

/-- One entry: after its lead and blanks, its key names a field not seen yet, `entry` reads its
value after the gap, and the loop goes on with the record updated. -/
theorem entriesGo_step {names : List String} {entry : σ → Nat → Scan σ} {fuel : Nat}
    {first : Bool} {seen : List Nat} {acc : σ} {e : WrittenEntry σ} {c : Cursor}
    {ws gap rest : List Char} (hws : Blanks ws) (hgap : Blanks gap)
    (hindex : fieldIndex? names e.key = some e.index) (hfresh : e.index ∉ seen)
    (hskips : SkipsBlanks (entry acc e.index)) (hstart : StartsItem e.text)
    (hread : ReadsAt (entry acc e.index) (e.update acc) e.text depth)
    (hc : c.rest = lead first ++ ws ++ e.line gap ++ rest) (hend : NumberEnd rest)
    (hb : c.rest.length < c.budget) (hd : c.depth = depth) :
    Leads (entriesText.go names entry (fuel + 1) first seen acc)
      (entriesText.go names entry fuel false (e.index :: seen) (e.update acc)) c rest depth := by
  rw [entriesText.go]
  have hkey : c.rest = lead first ++ ws ++ (quote e.key).toList ++ (':' :: (gap ++ e.text ++ rest)) := by
    rw [hc, WrittenEntry.line]
    simp
  refine (nextKey_key hws hkey hb).bind.trans fun c1 h1 hb1 hd1 => ?_
  have hnew : seen.contains e.index = false := by simpa using hfresh
  simp only [hindex, hnew, Bool.false_eq_true, if_false]
  refine (colon_gives h1).bind.trans fun c2 h2 hb2 hd2 => ?_
  have hlen := lt_budget_of_suffix
    (by rw [h2, hkey]; exact (List.suffix_cons _ _).trans (List.suffix_append _ _)) (hb2.trans hb1) hb
  obtain ⟨ch, more, htext, hblank, -⟩ := hstart
  have hvalue := hread.blanks hskips ⟨ch, more, htext, hblank⟩ hgap
  refine (hvalue c2 rest h2 hend hlen (by omega)).bind.trans fun c3 h3 _ hd3 => ?_
  exact Leads.stay _ h3 (by omega)

theorem entriesGo_end {names : List String} {entry : σ → Nat → Scan σ} {fuel : Nat}
    (first : Bool) (seen : List Nat) (acc : σ) {c : Cursor} {ws rest : List Char} (hws : Blanks ws)
    (hc : c.rest = ws ++ '}' :: rest) :
    Gives (entriesText.go names entry (fuel + 1) first seen acc) c acc ('}' :: rest) := by
  rw [entriesText.go]
  refine (nextKey_end first hws hc).bind.trans fun c1 h1 _ hd1 => ?_
  exact Leads.stay _ h1 hd1

/-- Entries that `entry` reads one after another: each key names its field among `names`, no
field comes twice or among those `seen` already, and each value starts with something other than
a blank and reads back whatever the record read so far. -/
structure EntriesFit (names : List String) (entry : σ → Nat → Scan σ) (depth : Nat)
    (seen : List Nat) (es : List (WrittenEntry σ)) : Prop where
  index : ∀ e ∈ es, fieldIndex? names e.key = some e.index
  fresh : ∀ e ∈ es, e.index ∉ seen
  nodup : (es.map WrittenEntry.index).Nodup
  starts : ∀ e ∈ es, StartsItem e.text
  reads : ∀ e ∈ es, ∀ s, ReadsAt (entry s e.index) (e.update s) e.text depth

theorem EntriesFit.tail {names : List String} {entry : σ → Nat → Scan σ} {seen : List Nat}
    {e : WrittenEntry σ} {es : List (WrittenEntry σ)} (h : EntriesFit names entry depth seen (e :: es)) :
    EntriesFit names entry depth (e.index :: seen) es where
  index e' he' := h.index e' (List.mem_cons_of_mem e he')
  fresh e' he' := by
    have hnodup := h.nodup
    rw [List.map_cons, List.nodup_cons] at hnodup
    rw [List.mem_cons, not_or]
    exact ⟨fun heq => hnodup.1 (heq ▸ List.mem_map_of_mem he'),
      h.fresh e' (List.mem_cons_of_mem e he')⟩
  nodup := (List.nodup_cons.1 (by simpa using h.nodup)).2
  starts e' he' := h.starts e' (List.mem_cons_of_mem e he')
  reads e' he' := h.reads e' (List.mem_cons_of_mem e he')

/-- The first entry of those that fit is read by `entriesGo_step`, from its lead and blanks. -/
theorem entriesGo_head {names : List String} {entry : σ → Nat → Scan σ} {seen : List Nat}
    {e : WrittenEntry σ} {es : List (WrittenEntry σ)} (hfit : EntriesFit names entry depth seen (e :: es))
    (hskips : ∀ s i, i < names.length → SkipsBlanks (entry s i)) {fuel : Nat} {first : Bool}
    {acc : σ} {c : Cursor} {ws gap rest : List Char} (hws : Blanks ws) (hgap : Blanks gap)
    (hc : c.rest = lead first ++ ws ++ e.line gap ++ rest) (hend : NumberEnd rest)
    (hb : c.rest.length < c.budget) (hd : c.depth = depth) :
    Leads (entriesText.go names entry (fuel + 1) first seen acc)
      (entriesText.go names entry fuel false (e.index :: seen) (e.update acc)) c rest depth :=
  have hmem := @List.mem_cons_self _ e es
  entriesGo_step hws hgap (hfit.index e hmem) (hfit.fresh e hmem)
    (hskips acc e.index (lt_length_of_fieldIndex (hfit.index e hmem))) (hfit.starts e hmem)
    (hfit.reads e hmem acc) hc hend hb hd

theorem length_le_entries (ws gap : List Char) (es : List (WrittenEntry σ)) :
    es.length ≤ ((es.map fun e => ',' :: (ws ++ e.line gap)).flatten).length := by
  induction es with
  | nil => simp
  | cons e es ih =>
    simp only [List.map_cons, List.flatten_cons, List.length_append, List.length_cons] at ih ⊢
    omega

/-- What follows an entry: the next entry after its comma, or the closing brace after blanks. -/
theorem numberEnd_entries (es : List (WrittenEntry σ)) {ws gap wsEnd : List Char}
    (hwsEnd : Blanks wsEnd) (rest : List Char) :
    NumberEnd ((es.map fun e => ',' :: (ws ++ e.line gap)).flatten ++ wsEnd ++ '}' :: rest) := by
  cases es with
  | nil => exact numberEnd_blanks hwsEnd (numberEnd_punct (.inr (.inr rfl)) rest)
  | cons e es => exact numberEnd_punct (.inl rfl) _

/-- Entries after the first, each after its comma and blanks, are read up to the closing brace. -/
theorem entriesGo_more {names : List String} {entry : σ → Nat → Scan σ}
    (hskips : ∀ s i, i < names.length → SkipsBlanks (entry s i))
    (es : List (WrittenEntry σ)) {seen : List Nat} (hfit : EntriesFit names entry depth seen es)
    {ws gap wsEnd : List Char} (hws : Blanks ws) (hgap : Blanks gap) (hwsEnd : Blanks wsEnd)
    {fuel : Nat} {acc : σ} {c : Cursor} {rest : List Char} (hfuel : es.length < fuel)
    (hc : c.rest = (es.map fun e => ',' :: (ws ++ e.line gap)).flatten ++ wsEnd ++ '}' :: rest)
    (hb : c.rest.length < c.budget) (hd : c.depth = depth) :
    Gives (entriesText.go names entry fuel false seen acc) c (es.foldl (fun s e => e.update s) acc)
      ('}' :: rest) := by
  induction es generalizing seen fuel acc c with
  | nil =>
    obtain ⟨fuel, rfl⟩ : ∃ f, fuel = f + 1 := ⟨fuel - 1, by simp at hfuel; omega⟩
    rw [List.map_nil, List.flatten_nil, List.nil_append] at hc
    rw [List.foldl_nil]
    exact entriesGo_end false seen acc hwsEnd hc
  | cons e es ih =>
    obtain ⟨fuel, rfl⟩ : ∃ f, fuel = f + 1 := ⟨fuel - 1, by simp at hfuel; omega⟩
    have hc' : c.rest = lead false ++ ws ++ e.line gap ++
        ((es.map fun e => ',' :: (ws ++ e.line gap)).flatten ++ wsEnd ++ '}' :: rest) := by
      simp [hc, lead]
    refine (entriesGo_head hfit hskips hws hgap hc' (numberEnd_entries es hwsEnd rest) hb
      hd).trans fun c1 h1 hb1 hd1 => ?_
    have hlen := lt_budget_of_suffix (by rw [h1, hc']; simp [List.suffix_append_of_suffix]) hb1 hb
    rw [List.foldl_cons, hd, ← hd1]
    exact ih hfit.tail (by simp at hfuel; omega) h1 hlen hd1

/-- The entries of an object, from the first, each after the same blanks and with the same gap
after its colon, are read up to the closing brace and the blanks before it, each updating the
record read so far. -/
theorem entriesText_written {names : List String} {init : σ} {entry : σ → Nat → Scan σ}
    (hskips : ∀ s i, i < names.length → SkipsBlanks (entry s i))
    (es : List (WrittenEntry σ)) (hfit : EntriesFit names entry depth [] es)
    {ws gap wsEnd : List Char} (hws : Blanks ws) (hgap : Blanks gap) (hwsEnd : Blanks wsEnd)
    {c : Cursor} {rest : List Char}
    (hc : c.rest = [','].intercalate (es.map fun e => ws ++ e.line gap) ++ wsEnd ++ '}' :: rest)
    (hb : c.rest.length < c.budget) (hd : c.depth = depth) :
    Gives (entriesText names init entry) c (es.foldl (fun s e => e.update s) init) ('}' :: rest) := by
  unfold entriesText
  refine (get_bind _ c).trans fun c1 h1 hb1 hd1 => ?_
  rw [← hd1, ← hb1]
  cases es with
  | nil =>
    rw [List.map_nil, List.intercalate_nil, List.nil_append] at hc
    obtain ⟨fuel, hfuel⟩ : ∃ f, c1.budget = f + 1 := ⟨c1.budget - 1, by
      rw [hb1]
      rw [hc] at hb
      simp at hb
      omega⟩
    rw [hfuel, List.foldl_nil]
    exact entriesGo_end true [] init hwsEnd (h1.trans hc)
  | cons e es =>
    have hc' : c1.rest = lead true ++ ws ++ e.line gap ++
        ((es.map fun e => ',' :: (ws ++ e.line gap)).flatten ++ wsEnd ++ '}' :: rest) := by
      rw [h1, hc, List.map_cons, intercalate_comma, List.map_map]
      simp [lead, Function.comp_def]
    have hfuel : es.length + 1 < c1.budget := by
      have := length_le_entries ws gap es
      rw [hb1]
      rw [← h1, hc'] at hb
      simp only [List.length_append, List.length_cons] at hb
      omega
    obtain ⟨fuel, hfuel'⟩ : ∃ f, c1.budget = f + 1 := ⟨c1.budget - 1, by omega⟩
    rw [hfuel']
    refine (entriesGo_head hfit hskips hws hgap hc' (numberEnd_entries es hwsEnd rest)
      (by rw [h1, hb1]; exact hb) (hd1.trans hd)).trans fun c2 h2 hb2 hd2 => ?_
    have hlen := lt_budget_of_suffix (by rw [h2, ← h1, hc']; simp [List.suffix_append_of_suffix])
      (hb2.trans hb1) hb
    rw [List.foldl_cons, hd1, hd, ← hd2]
    exact entriesGo_more hskips es hfit.tail hws hgap hwsEnd (by omega) h2 hlen hd2

end Records

/-! ## Arrays of records -/

section Arrays

variable {α β : Type} {depth : Nat}

/-- An array read item by item with `elem`, one level of nesting deeper, as the performers of a
clip and the clips of a catalog are read. -/
def recordArray (elem : Scan α) : Scan (List α) := settle do
  match ← skipBlank with
  | none => failAhead .eofValue
  | some '[' => do
    enter
    eat
    let xs ← closing (arrayLoop (fun _ => elem) ((← get).budget) true []) endArray
    leave
    pure xs
  | some _ => wrongType "a sequence"

theorem skipsBlanks_recordArray (elem : Scan α) : SkipsBlanks (recordArray elem) := by
  unfold recordArray
  exact (skipsBlanks_skipBlank_bind _).settle

/-- The array of the texts of some sources, each the text of an item that `elem` reads back one
level deeper and each after the same blanks, reads back as the list of those items. -/
theorem recordArray_items {elem : Scan α} (ys : List β) (val : β → α) (text : β → List Char)
    {ws wsEnd : List Char} (hws : Blanks ws) (hwsEnd : Blanks wsEnd) (hdepth : 1 < depth)
    (hys : ∀ y ∈ ys, StartsItem (text y) ∧ ReadsAt elem (val y) (text y) (depth - 1)) :
    ReadsAt (recordArray elem) (ys.map val)
      ('[' :: ([','].intercalate (ys.map fun y => ws ++ text y) ++ wsEnd ++ [']'])) depth := by
  intro c rest hc _ hb hd
  rw [List.cons_append, List.append_assoc, List.append_assoc, List.singleton_append] at hc
  unfold recordArray
  refine Gives.settle ?_
  refine (skipBlank_bind _ (by simp [hc, isBlankChar])).trans fun c1 h1 hb1 hd1 => ?_
  simp only [hc, List.head?_cons]
  refine (enter_bind _ (by omega)).trans fun c2 h2 hb2 hd2 => ?_
  refine (eat_bind _ (h2.trans (h1.trans hc))).trans fun c3 h3 hb3 hd3 => ?_
  refine (get_bind _ c3).trans fun c4 h4 hb4 hd4 => ?_
  have hrest : c3.rest = [','].intercalate (ys.map fun y => ws ++ text y) ++ wsEnd ++ ']' :: rest := by
    rw [h3, List.append_assoc]
  have hlen := lt_budget_of_suffix (by rw [h3, hc]; simp) (hb3.trans (hb2.trans hb1)) hb
  -- the budget is more than the items, for each is written with at least one character
  have hfuel : ys.length < c3.budget := by
    have htexts : ∀ t ∈ ys.map fun y => ws ++ text y, t ≠ [] := by
      intro t ht
      obtain ⟨y, hy, rfl⟩ := List.mem_map.1 ht
      obtain ⟨ch, more, heq, -⟩ := (hys y hy).1
      rw [heq]
      exact List.append_ne_nil_of_right_ne_nil ws (List.cons_ne_nil ch more)
    have := length_le_intercalate htexts
    rw [hrest] at hlen
    simp only [List.length_map, List.length_append, List.length_cons] at this hlen ⊢
    omega
  have hloop := arrayLoop_items ys val text (fun y hy => ⟨(hys y hy).1, fun _ _ => (hys y hy).2⟩)
    hws hwsEnd hfuel (h4.trans hrest) (by rw [h4, hb4]; exact hlen) (by omega)
  refine (hloop.closing fun c' hr _ _ => endArray_gives hr).bind.trans fun c5 h5 _ hd5 => ?_
  refine (leave_bind _ c5).trans fun c6 h6 _ hd6 => ?_
  exact Leads.stay _ (h6.trans h5) (by omega)

end Arrays

/-! ## Performers -/

section Performers

variable {depth : Nat}

/-- The entries of a performer as written: its name, then its reading. -/
def performerEntries (p : Performer) : List (WrittenEntry (Option String × String)) :=
  [⟨"name", 0, (quote p.name).toList, fun acc => (some p.name, acc.2)⟩,
   ⟨"reading", 1, (quote p.reading).toList, fun acc => (acc.1, p.reading)⟩]

theorem text_performer (lay : Layout) (p : Performer) :
    lay.text p.toValue = '{' :: ([','].intercalate ((performerEntries p).map fun e =>
      lay.itemLead ++ e.line lay.gap) ++ lay.closer false ++ ['}']) := by
  simp [Performer.toValue, Layout.text_object, Layout.text_string, performerEntries,
    WrittenEntry.line]

theorem skipsBlanks_performerEntry (acc : Option String × String) (i : Nat) :
    SkipsBlanks (if i == 0 then do return (some (← textText), acc.2) else do return (acc.1, ← textText)) := by
  split
  · exact skipsBlanks_textText.bind _
  · exact skipsBlanks_textText.bind _

theorem performerEntries_fit (p : Performer) :
    EntriesFit ["name", "reading"] (fun (acc : Option String × String) i =>
      if i == 0 then do return (some (← textText), acc.2) else do return (acc.1, ← textText))
      depth [] (performerEntries p) where
  index e he := by
    simp only [performerEntries, List.mem_cons, List.not_mem_nil, or_false] at he
    rcases he with rfl | rfl <;> rfl
  fresh _ _ := List.not_mem_nil
  nodup := by simp [performerEntries]
  starts e he := by
    simp only [performerEntries, List.mem_cons, List.not_mem_nil, or_false] at he
    rcases he with rfl | rfl <;> exact Layout.startsItem_quote _
  reads e he s := by
    simp only [performerEntries, List.mem_cons, List.not_mem_nil, or_false] at he
    rcases he with rfl | rfl
    · exact (textText_quote p.name).map_pure fun x => (some x, s.2)
    · exact (textText_quote p.reading).map_pure fun x => (s.1, x)

/-- A performer reads back from the object of its name and reading, in either layout. -/
theorem performerText_toValue (lay : Layout) (p : Performer) (hdepth : 1 < depth) :
    ReadsAt performerText p (lay.text p.toValue) depth := by
  rw [text_performer]
  unfold performerText
  refine recordText_object hdepth fun c rest hc hb hd => ?_
  refine (entriesText_written (fun acc i _ => skipsBlanks_performerEntry acc i) (performerEntries p)
    (performerEntries_fit p) (Layout.blanks_itemLead lay) (Layout.blanks_gap lay)
    (Layout.blanks_closer lay false) hc hb hd).bind.trans fun c1 h1 _ hd1 => ?_
  exact Leads.stay _ h1 hd1

theorem performersText_items_eq (fuel : Nat) (first : Bool) (acc : List Performer) :
    performersText.items fuel first acc = arrayLoop (fun _ => performerText) fuel first acc := by
  induction fuel generalizing first acc with
  | zero => rfl
  | succ fuel ih =>
    rw [performersText.items, arrayLoop]
    simp only [ih]

theorem performersText_eq : performersText = recordArray performerText := by
  unfold performersText
  simp only [performersText_items_eq]
  rfl

theorem skipsBlanks_performersText : SkipsBlanks performersText :=
  performersText_eq ▸ skipsBlanks_recordArray performerText

/-- The performers of a clip read back from the array of their objects, in either layout, two
levels of nesting deeper. -/
theorem performersText_value (lay : Layout) (ps : List Performer) (hdepth : 2 < depth) :
    ReadsAt performersText ps (lay.text (.array (ps.map Performer.toValue))) depth := by
  have hread : ReadsAt (recordArray performerText) (ps.map id)
      ('[' :: ([','].intercalate (ps.map fun p => lay.itemLead ++ lay.inner.text p.toValue) ++
        lay.closer (ps.map Performer.toValue).isEmpty ++ [']'])) depth :=
    recordArray_items ps id _ (Layout.blanks_itemLead lay) (Layout.blanks_closer lay _) (by omega)
      fun p _ => ⟨Layout.startsItem_text_object _ _, performerText_toValue lay.inner p (by omega)⟩
  rw [List.map_id] at hread
  rw [performersText_eq, Layout.text_array, List.map_map]
  exact hread

end Performers

/-! ## Clips -/

section Clips

variable {depth : Nat}

/-- The entries of a clip written in a layout, in the order of its fields; reading each sets its
field, a date to the second. -/
def clipEntries (lay : Layout) (c : Clip) : List (WrittenEntry Clip) :=
  [⟨"id", 0, (compact (intValue c.id)).toList, fun x => { x with id := c.id }⟩,
   ⟨"filePath", 1, (compact (optTextValue c.filePath)).toList,
     fun x => { x with filePath := c.filePath }⟩,
   ⟨"clipName", 2, (compact (optTextValue c.clipName)).toList,
     fun x => { x with clipName := c.clipName }⟩,
   ⟨"songTitle", 3, (compact (optTextValue c.songTitle)).toList,
     fun x => { x with songTitle := c.songTitle }⟩,
   ⟨"concertName", 4, (compact (optTextValue c.concertName)).toList,
     fun x => { x with concertName := c.concertName }⟩,
   ⟨"lyrics", 5, (compact (optTextValue c.lyrics)).toList, fun x => { x with lyrics := c.lyrics }⟩,
   ⟨"remarks", 6, (compact (optTextValue c.remarks)).toList,
     fun x => { x with remarks := c.remarks }⟩,
   ⟨"durationMs", 7, (compact (.number (.nat c.durationMs))).toList,
     fun x => { x with durationMs := c.durationMs }⟩,
   ⟨"concertDate", 8, (compact (momentValue c.concertDate)).toList,
     fun x => { x with concertDate := c.concertDate.map Moment.wholeSecond }⟩,
   ⟨"createdAt", 9, (compact (momentValue c.createdAt)).toList,
     fun x => { x with createdAt := c.createdAt.map Moment.wholeSecond }⟩,
   ⟨"updatedAt", 10, (compact (momentValue c.updatedAt)).toList,
     fun x => { x with updatedAt := c.updatedAt.map Moment.wholeSecond }⟩,
   ⟨"liveType", 11, (quote c.liveType.name).toList, fun x => { x with liveType := c.liveType }⟩,
   ⟨"brands", 12, lay.inner.text (.array (c.brands.labels.map .string)),
     fun x => { x with brands := c.brands }⟩,
   ⟨"performers", 13, lay.inner.text (.array (c.performers.map Performer.toValue)),
     fun x => { x with performers := c.performers }⟩]

/-! Scalars are written alike in both layouts. -/

theorem text_intValue (lay : Layout) (n : Int) : lay.text (intValue n) = (compact (intValue n)).toList := by
  unfold intValue
  split <;> exact Layout.text_number _ _

theorem text_optTextValue (lay : Layout) (o : Option String) :
    lay.text (optTextValue o) = (compact (optTextValue o)).toList := by
  cases o with
  | none => rw [optTextValue, Layout.text_null, compact]
  | some s => rw [optTextValue, Layout.text_string, compact]

theorem text_momentValue (lay : Layout) (o : Option Moment) :
    lay.text (momentValue o) = (compact (momentValue o)).toList := by
  cases o with
  | none => rw [momentValue, Layout.text_null, compact]
  | some m => rw [momentValue, Layout.text_string, compact]

theorem text_clip (lay : Layout) (c : Clip) :
    lay.text c.toValue = '{' :: ([','].intercalate ((clipEntries lay c).map fun e =>
      lay.itemLead ++ e.line lay.gap) ++ lay.closer false ++ ['}']) := by
  simp [Clip.toValue, Layout.text_object, text_intValue, text_optTextValue, text_momentValue,
    Layout.text_number, Layout.text_string, clipEntries, WrittenEntry.line]

/-- Setting every field in turn from the empty record gives the clip to the second. -/
theorem foldl_clipEntries (lay : Layout) (c : Clip) :
    (clipEntries lay c).foldl (fun s e => e.update s) {} = c.wholeSeconds := rfl

theorem BrandSet.length_labels (s : BrandSet) : s.labels.length ≤ 10 := by
  rw [BrandSet.labels, List.length_map, BrandSet.members]
  exact List.length_filter_le _ _

theorem Clip.skipsBlanks_readField (fuel : Nat) (s : Clip) {i : Nat} (hi : i < clipFields.length) :
    SkipsBlanks (Clip.readField (fuel + 1) s i) := by
  match i, hi with
  | 0, _ => exact (skipsBlanks_numberText _ _).bind _
  | 1, _ | 2, _ | 3, _ | 4, _ | 5, _ | 6, _ => exact skipsBlanks_optTextText.bind _
  | 7, _ => exact (skipsBlanks_numberText _ _).bind _
  | 8, _ | 9, _ | 10, _ => exact (skipsBlanks_lenientText fuel dateOfValue).bind _
  | 11, _ => exact skipsBlanks_liveTypeText.bind _
  | 12, _ => exact (skipsBlanks_lenientText fuel brandsOfValue).bind _
  | 13, _ => exact skipsBlanks_performersText.bind _

theorem clipEntries_fit (lay : Layout) {c : Clip} (hc : c.Storable) {fuel : Nat} (hfuel : 12 ≤ fuel)
    (hdepth : 2 < depth) :
    EntriesFit clipFields (Clip.readField fuel) depth [] (clipEntries lay c) where
  index e he := by
    simp only [clipEntries, List.mem_cons, List.not_mem_nil, or_false] at he
    rcases he with rfl | rfl | rfl | rfl | rfl | rfl | rfl | rfl | rfl | rfl | rfl | rfl | rfl | rfl <;>
      rfl
  fresh _ _ := List.not_mem_nil
  nodup := by simp [clipEntries]
  starts e he := by
    simp only [clipEntries, List.mem_cons, List.not_mem_nil, or_false] at he
    rcases he with rfl | rfl | rfl | rfl | rfl | rfl | rfl | rfl | rfl | rfl | rfl | rfl | rfl | rfl
    · exact startsItem_intValue c.id
    · exact startsItem_optTextValue c.filePath
    · exact startsItem_optTextValue c.clipName
    · exact startsItem_optTextValue c.songTitle
    · exact startsItem_optTextValue c.concertName
    · exact startsItem_optTextValue c.lyrics
    · exact startsItem_optTextValue c.remarks
    · exact startsItem_nat c.durationMs
    · exact startsItem_momentValue c.concertDate
    · exact startsItem_momentValue c.createdAt
    · exact startsItem_momentValue c.updatedAt
    · exact Layout.startsItem_quote c.liveType.name
    · exact Layout.startsItem_text_array _ _
    · exact Layout.startsItem_text_array _ _
  reads e he s := by
    obtain ⟨fuel, rfl⟩ : ∃ f, fuel = f + 1 := ⟨fuel - 1, by omega⟩
    simp only [clipEntries, List.mem_cons, List.not_mem_nil, or_false] at he
    rcases he with rfl | rfl | rfl | rfl | rfl | rfl | rfl | rfl | rfl | rfl | rfl | rfl | rfl | rfl
    · exact (int64Text_intValue hc.id_ge hc.id_lt).map_pure fun x => { s with id := x }
    · exact (optTextText_value c.filePath).map_pure fun x => { s with filePath := x }
    · exact (optTextText_value c.clipName).map_pure fun x => { s with clipName := x }
    · exact (optTextText_value c.songTitle).map_pure fun x => { s with songTitle := x }
    · exact (optTextText_value c.concertName).map_pure fun x => { s with concertName := x }
    · exact (optTextText_value c.lyrics).map_pure fun x => { s with lyrics := x }
    · exact (optTextText_value c.remarks).map_pure fun x => { s with remarks := x }
    · exact (countText_nat hc.duration_le).map_pure fun x => { s with durationMs := x }
    · exact (lenientText_moment hc.concertDate).map_pure fun x => { s with concertDate := x }
    · exact (lenientText_moment hc.createdAt).map_pure fun x => { s with createdAt := x }
    · exact (lenientText_moment hc.updatedAt).map_pure fun x => { s with updatedAt := x }
    · exact (liveTypeText_name c.liveType).map_pure fun x => { s with liveType := x }
    · have hlabels := BrandSet.length_labels c.brands
      exact (@lenientText_brands depth lay.inner fuel c.brands hc.brands (by omega)
        (by omega)).map_pure fun x => { s with brands := x }
    · exact (performersText_value lay.inner c.performers hdepth).map_pure
        fun x => { s with performers := x }

/-- A clip that its fields can hold reads back from its object in either layout, to the second,
with fuel enough for its brands and three levels of nesting to enter. -/
theorem clipText_toValue (lay : Layout) {c : Clip} (hc : c.Storable) {fuel : Nat} (hfuel : 12 ≤ fuel)
    (hdepth : 3 < depth) :
    ReadsAt (clipText fuel) c.wholeSeconds (lay.text c.toValue) depth := by
  obtain ⟨f, rfl⟩ : ∃ f, fuel = f + 1 := ⟨fuel - 1, by omega⟩
  rw [text_clip]
  unfold clipText
  refine recordText_object (by omega) fun cur rest hcur hb hd => ?_
  rw [← foldl_clipEntries lay]
  exact entriesText_written (fun s _ hi => Clip.skipsBlanks_readField f s hi) (clipEntries lay c)
    (clipEntries_fit lay hc hfuel (by omega)) (Layout.blanks_itemLead lay) (Layout.blanks_gap lay)
    (Layout.blanks_closer lay false) hcur hb hd

theorem length_text_clip (lay : Layout) (c : Clip) : 14 ≤ (lay.text c.toValue).length := by
  have h := @length_le_intercalate ((clipEntries lay c).map fun e => lay.itemLead ++ e.line lay.gap)
    (by
      intro t ht
      obtain ⟨e, -, rfl⟩ := List.mem_map.1 ht
      simp [WrittenEntry.line, quote_toList])
  rw [text_clip]
  simp only [List.length_map, List.length_cons, List.length_append] at h ⊢
  have : (clipEntries lay c).length = 14 := rfl
  omega

/-- A storable clip reads back from its object, written in either layout, to the second. -/
theorem readClip_written (lay : Layout) {c : Clip} (hc : c.Storable) :
    readClip (lay.write c.toValue) = .ok c.wholeSeconds := by
  have hlen := length_le_utf8ByteSize (lay.write c.toValue)
  have h14 := length_text_clip lay c
  exact runText_of_reads (clipText_toValue lay hc (by rw [Layout.text] at h14; omega) (by decide))

theorem clipsText_items_eq (fuel n : Nat) (first : Bool) (acc : List Clip) :
    clipsText.items fuel n first acc = arrayLoop (fun _ => clipText fuel) n first acc := by
  induction n generalizing first acc with
  | zero => rfl
  | succ n ih =>
    rw [clipsText.items, arrayLoop]
    simp only [ih]

theorem clipsText_eq (fuel : Nat) : clipsText fuel = recordArray (clipText fuel) := by
  unfold clipsText
  simp only [clipsText_items_eq]
  rfl

/-- Storable clips read back from the array of their objects, written in either layout, each to
the second. -/
theorem readClips_written (lay : Layout) {cs : List Clip} (hcs : ∀ c ∈ cs, c.Storable) :
    readClips (lay.write (.array (cs.map Clip.toValue))) = .ok (cs.map Clip.wholeSeconds) := by
  apply runText_of_reads
  -- the text of each clip lies within the array's, so the fuel covers its brands
  have hfuel : ∀ c ∈ cs, 12 ≤ (lay.write (.array (cs.map Clip.toValue))).utf8ByteSize + 2 := by
    intro c hc
    have hmem : lay.itemLead ++ lay.inner.text c.toValue ∈
        cs.map fun c => lay.itemLead ++ lay.inner.text c.toValue :=
      List.mem_map_of_mem hc
    have hin := length_le_intercalate_of_mem hmem
    have hlen := length_le_utf8ByteSize (lay.write (.array (cs.map Clip.toValue)))
    have h14 := length_text_clip lay.inner c
    rw [← Layout.text, Layout.text_array, List.map_map] at hlen
    simp only [List.length_cons, List.length_append, Function.comp_def] at hlen hin
    omega
  rw [← Layout.text, clipsText_eq, Layout.text_array, List.map_map]
  exact recordArray_items cs Clip.wholeSeconds (fun c => lay.inner.text c.toValue)
    (Layout.blanks_itemLead lay) (Layout.blanks_closer lay _) (by decide) fun c hc =>
      ⟨Layout.startsItem_text_object _ _, clipText_toValue lay.inner (hcs c hc) (hfuel c hc) (by decide)⟩

end Clips

end ClipSearch.Catalog
