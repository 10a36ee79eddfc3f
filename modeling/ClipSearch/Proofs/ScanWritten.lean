import ClipSearch.Proofs.Digits
import ClipSearch.Json.Document
import ClipSearch.Json.Writer
/-!
# Reading written JSON back

The reader is run on text that the writer produced: no blanks between tokens, strings with
their escapes, integers in full. `Leads m m' c rest` says that the step `m`, run from the cursor
`c`, goes on exactly as `m'` run from a cursor that stands before `rest`, with the budget and the
nesting that `c` has; `Gives m c a rest` is the case where `m'` is `pure a`. Every step of the
reader is described that way from the text in front of it, so that the positions kept for
messages never enter a proof.

`ReadsAt m a t depth` says that `m` reads `a` off any text that starts with `t`. The main
statements: a string reads back from its quoted form (`string_escaped`, `eat_string_bind`), an
integer that fits 64 bits from its digits (`integer_nat`, `integer_neg`), the items of an array
one by one with any reader of items (`arrayLoop_items`), and `Scan.value` reads back `null`,
strings and arrays of what it reads back (`value_null`, `value_string`, `value_array`). A text
whose value is read that way reads as that value as a whole (`runText_of_reads`).
-/
namespace ClipSearch.Json.Scan

open ClipSearch.Decimal

/-! ## Steps described by the text they read -/

section Steps

variable {α β : Type}

/-- Run from `c`, the step `m` goes on as `m'` run from a cursor that stands before `rest`, at
nesting `depth`, with the budget of `c`. -/
def Leads (m m' : Scan α) (c : Cursor) (rest : List Char) (depth : Nat) : Prop :=
  ∃ c' : Cursor, m.run.run c = m'.run.run c' ∧ c'.rest = rest ∧ c'.budget = c.budget ∧
    c'.depth = depth

/-- Run from `c`, the step succeeds with `a` and stops before `rest`, with the budget and the
nesting of `c`. -/
def Gives (m : Scan α) (c : Cursor) (a : α) (rest : List Char) : Prop :=
  Leads m (pure a) c rest c.depth

theorem Leads.refl (m : Scan α) (c : Cursor) : Leads m m c c.rest c.depth :=
  ⟨c, rfl, rfl, rfl, rfl⟩

theorem Gives.pure (a : α) (c : Cursor) : Gives (pure a) c a c.rest := Leads.refl _ c

theorem Leads.stay (m : Scan α) {c : Cursor} {r : List Char} {d : Nat} (hr : c.rest = r)
    (hd : c.depth = d) : Leads m m c r d :=
  ⟨c, rfl, hr, rfl, hd⟩

/-- Going on from wherever the first leg stopped. -/
theorem Leads.trans {m₁ m₂ m₃ : Scan α} {c : Cursor} {r r' : List Char} {d d' : Nat}
    (h : Leads m₁ m₂ c r d)
    (h' : ∀ c' : Cursor, c'.rest = r → c'.budget = c.budget → c'.depth = d → Leads m₂ m₃ c' r' d') :
    Leads m₁ m₃ c r' d' := by
  obtain ⟨c', e, hr, hb, hd⟩ := h
  obtain ⟨c'', e', hr', hb', hd'⟩ := h' c' hr hb hd
  exact ⟨c'', e.trans e', hr', hb'.trans hb, hd'⟩

/-- A step that gives `a` hands it to what is bound after it. -/
theorem Gives.bind {m : Scan α} {f : α → Scan β} {c : Cursor} {a : α} {r : List Char}
    (h : Gives m c a r) : Leads (m >>= f) (f a) c r c.depth := by
  obtain ⟨c', e, hr, hb, hd⟩ := h
  refine ⟨c', ?_, hr, hb, hd⟩
  simp only [ExceptT.run_bind, StateT.run_bind, e]
  rfl

theorem Gives.map_pure {m : Scan α} {c : Cursor} {a : α} {r : List Char} (f : α → β)
    (h : Gives m c a r) : Gives (m >>= fun x => Pure.pure (f x)) c (f a) r := by
  refine h.bind.trans fun c' hr _ hd => ?_
  rw [← hr, ← hd]
  exact Gives.pure (f a) c'

theorem Gives.seq_pure {m : Scan α} {c : Cursor} {a : α} {r : List Char} (b : β)
    (h : Gives m c a r) : Gives (m >>= fun _ => Pure.pure b) c b r :=
  h.map_pure fun _ => b

/-- A step whose run is that of another from the same cursor leads where the other does. -/
theorem Leads.of_run {m m' m'' : Scan α} {c : Cursor} {r : List Char} {d : Nat}
    (e : m.run.run c = m'.run.run c) (h : Leads m' m'' c r d) : Leads m m'' c r d := by
  obtain ⟨c', e', hr, hb, hd⟩ := h
  exact ⟨c', e.trans e', hr, hb, hd⟩

/-- What may follow a written number: nothing that goes on with it. -/
def NumberEnd (rest : List Char) : Prop :=
  ∀ ch ∈ rest.head?, ch.isDigit = false ∧ ch ≠ '.' ∧ ch ≠ 'e' ∧ ch ≠ 'E'

/-- `m` reads `a` off the front of any text that starts with `t` and goes on with something
that does not go on with a number, from any cursor at nesting `depth` whose budget exceeds what
is left. -/
def ReadsAt (m : Scan α) (a : α) (t : List Char) (depth : Nat) : Prop :=
  ∀ (c : Cursor) (rest : List Char), c.rest = t ++ rest → NumberEnd rest →
    c.rest.length < c.budget → c.depth = depth → Gives m c a rest

/-- A cursor that has read on from another, over the same budget, has what is left within it. -/
theorem lt_budget_of_suffix {c c' : Cursor} (hs : c'.rest <:+ c.rest) (hbudget : c'.budget = c.budget)
    (hb : c.rest.length < c.budget) : c'.rest.length < c'.budget := by
  have := hs.length_le
  omega

theorem ReadsAt.map_pure {m : Scan α} {a : α} {t : List Char} {depth : Nat} (f : α → β)
    (h : ReadsAt m a t depth) : ReadsAt (m >>= fun x => Pure.pure (f x)) (f a) t depth :=
  fun c rest hc hend hb hd => (h c rest hc hend hb hd).map_pure f

theorem numberEnd_punct {ch : Char} (h : ch = ',' ∨ ch = ']' ∨ ch = '}') (more : List Char) :
    NumberEnd (ch :: more) := by
  intro x hx
  obtain rfl : x = ch := by simpa using hx.symm
  rcases h with rfl | rfl | rfl <;> decide

theorem numberEnd_nil : NumberEnd [] := fun _ hx => absurd hx (by simp)

end Steps

/-! ## The cursor's own steps -/

section Cursor

variable {α : Type}

def isBlankChar (ch : Char) : Bool := ch == ' ' || ch == '\n' || ch == '\t' || ch == '\r'

theorem run_get_bind (f : Cursor → Scan α) (c : Cursor) :
    ((get : Scan Cursor) >>= f).run.run c = (f c).run.run c := rfl

theorem get_bind (f : Cursor → Scan α) (c : Cursor) :
    Leads ((get : Scan Cursor) >>= f) (f c) c c.rest c.depth :=
  ⟨c, rfl, rfl, rfl, rfl⟩

theorem peek_bind (f : Option Char → Scan α) (c : Cursor) :
    Leads (peek >>= f) (f c.rest.head?) c c.rest c.depth :=
  ⟨c, rfl, rfl, rfl, rfl⟩

theorem eat_bind (f : Unit → Scan α) {c : Cursor} {ch : Char} {more : List Char}
    (hc : c.rest = ch :: more) : Leads (eat >>= f) (f ()) c more c.depth := by
  refine ⟨_, rfl, ?_⟩
  simp only [hc]
  split <;> exact ⟨rfl, rfl, rfl⟩

theorem eat_gives {c : Cursor} {ch : Char} {more : List Char} (hc : c.rest = ch :: more) :
    Gives eat c () more := by
  have h := eat_bind pure hc
  rw [bind_pure] at h
  exact h

theorem enter_bind (f : Unit → Scan α) {c : Cursor} (hd : 1 < c.depth) :
    Leads (enter >>= f) (f ()) c c.rest (c.depth - 1) := by
  refine ⟨{ c with depth := c.depth - 1 }, ?_, rfl, rfl, rfl⟩
  simp only [enter, bind_assoc]
  rw [run_get_bind, if_neg (by omega)]
  rfl

theorem leave_bind (f : Unit → Scan α) (c : Cursor) :
    Leads (leave >>= f) (f ()) c c.rest (c.depth + 1) :=
  ⟨{ c with depth := c.depth + 1 }, rfl, rfl, rfl, rfl⟩

/-- A step that gives `a` gives it whatever would handle its failure. -/
theorem Gives.tryCatch {act : Scan α} {handler : Fault → Scan α} {c : Cursor} {a : α}
    {r : List Char} (h : Gives act c a r) : Gives (tryCatch act handler) c a r := by
  obtain ⟨c', e, hr, hb, hd⟩ := h
  have e' : StateT.run act c = (.ok a, c') := e
  refine ⟨c', ?_, hr, hb, hd⟩
  simp only [MonadExcept.tryCatch, tryCatchThe, MonadExceptOf.tryCatch, ExceptT.tryCatch,
    ExceptT.run_mk, StateT.run_bind, e']
  rfl

/-- A step that gives `a` still does when a problem it never meets would be given a position. -/
theorem Gives.settle {act : Scan α} {c : Cursor} {a : α} {r : List Char} (h : Gives act c a r) :
    Gives (settle act) c a r :=
  h.tryCatch

/-- A body that gives `a`, closed by a step that succeeds. -/
theorem Gives.closing {body : Scan α} {close : Scan Unit} {c : Cursor} {a : α} {r r' : List Char}
    (h : Gives body c a r)
    (hclose : ∀ c' : Cursor, c'.rest = r → c'.budget = c.budget → c'.depth = c.depth →
      Gives close c' () r') :
    Gives (closing body close) c a r' := by
  unfold Scan.closing
  refine h.tryCatch.bind.trans fun c' hr hb hd => ?_
  refine (hclose c' hr hb hd).bind.trans fun c'' hr' hb' hd' => ?_
  rw [← hr', ← hd, ← hd']
  exact Gives.pure a c''

theorem word_gives {cs more : List Char} {c : Cursor} (hc : c.rest = cs ++ more) :
    Gives (word cs) c () more := by
  induction cs generalizing c with
  | nil =>
    simp only [List.nil_append] at hc
    exact hc ▸ Gives.pure () c
  | cons ch cs ih =>
    unfold Scan.word at ih ⊢
    simp only [List.forIn_cons, bind_assoc]
    refine (peek_bind _ c).trans fun c1 h1 hb1 hd1 => ?_
    rw [hc, List.cons_append, List.head?_cons]
    simp only [bne_self_eq_false, Bool.false_eq_true, if_false, bind_assoc, pure_bind]
    refine (eat_bind _ (h1.trans (hc.trans (List.cons_append ..)))).trans fun c2 h2 _ hd2 => ?_
    rw [← hd1, ← hd2]
    exact ih h2

/-- A loop that reads one character per element reads as many as the list is long. -/
theorem forIn_eat_gives {β : Type} (l : List β) {cs more : List Char} {c : Cursor}
    (hc : c.rest = cs ++ more) (hlen : cs.length = l.length) :
    Gives (forIn l PUnit.unit fun _ _ => do eat; pure (ForInStep.yield PUnit.unit)) c () more := by
  induction l generalizing cs c with
  | nil =>
    obtain rfl : cs = [] := List.eq_nil_of_length_eq_zero hlen
    rw [List.nil_append] at hc
    show Gives (pure PUnit.unit) c () more
    exact hc ▸ Gives.pure () c
  | cons b l ih =>
    obtain ⟨ch, cs, rfl⟩ := List.exists_cons_of_length_eq_add_one hlen
    simp only [List.forIn_cons, bind_assoc, pure_bind]
    refine (eat_bind _ (hc.trans (List.cons_append ..))).trans fun c1 h1 _ hd1 => ?_
    rw [← hd1]
    exact ih h1 (by simpa using hlen)

theorem eatMany_gives {cs more : List Char} {c : Cursor} (hc : c.rest = cs ++ more) :
    Gives (eatMany cs.length) c () more := by
  unfold eatMany
  exact (forIn_eat_gives _ hc (List.length_range ..).symm).seq_pure ()

def Blanks (ws : List Char) : Prop := ∀ w ∈ ws, isBlankChar w = true

theorem blanks_nil : Blanks [] := fun _ h => absurd h List.not_mem_nil

theorem takeWhile_blank_of_head {t : List Char} (ht : ∀ ch ∈ t.head?, isBlankChar ch = false) :
    t.takeWhile isBlankChar = [] := by
  cases t with
  | nil => rfl
  | cons ch r => simp [List.takeWhile, ht ch rfl]

/-- Before a character that is not blank, skipping blanks does nothing. -/
theorem run_skipBlank_bind (f : Option Char → Scan α) {c : Cursor}
    (h : ∀ ch ∈ c.rest.head?, isBlankChar ch = false) :
    (skipBlank >>= f).run.run c = (f c.rest.head?).run.run c := by
  simp only [skipBlank, bind_assoc]
  rw [run_get_bind]
  simp only [show (fun ch => ch == ' ' || ch == '\n' || ch == '\t' || ch == '\r') = isBlankChar
    from rfl, takeWhile_blank_of_head h]
  rfl

/-- Blanks are skipped; text that starts with something else is left as it is. -/
theorem skipBlank_bind (f : Option Char → Scan α) {c : Cursor}
    (h : ∀ ch ∈ c.rest.head?, isBlankChar ch = false) :
    Leads (skipBlank >>= f) (f c.rest.head?) c c.rest c.depth :=
  Leads.of_run (run_skipBlank_bind f h) (Leads.refl _ c)

/-- Blanks are skipped up to the first character that is not one. -/
theorem skipBlank_blanks_bind (f : Option Char → Scan α) {c : Cursor} {ws t : List Char}
    (hc : c.rest = ws ++ t) (hws : Blanks ws) (ht : ∀ ch ∈ t.head?, isBlankChar ch = false) :
    Leads (skipBlank >>= f) (f t.head?) c t c.depth := by
  have htake : c.rest.takeWhile isBlankChar = ws := by
    rw [hc, List.takeWhile_append_of_pos hws, takeWhile_blank_of_head ht, List.append_nil]
  simp only [skipBlank, bind_assoc]
  refine (get_bind _ c).trans fun c1 h1 _ hd1 => ?_
  simp only [show (fun ch => ch == ' ' || ch == '\n' || ch == '\t' || ch == '\r') = isBlankChar
    from rfl, htake]
  refine (forIn_eat_gives ws (h1.trans hc) rfl).bind.trans fun c2 h2 _ hd2 => ?_
  refine (peek_bind f c2).trans fun c3 h3 _ hd3 => ?_
  rw [h2]
  exact Leads.stay _ (h3.trans h2) (hd3.trans (hd2.trans hd1))

end Cursor

/-! ## Steps that skip blanks first -/

section Blanks

variable {α β : Type}

/-- `m` begins by skipping blanks: before blanks and then a text that starts with something
else, it runs as it does before that text. -/
def SkipsBlanks (m : Scan α) : Prop :=
  ∀ (c : Cursor) (ws t : List Char), c.rest = ws ++ t → Blanks ws →
    (∀ ch ∈ t.head?, isBlankChar ch = false) → Leads m m c t c.depth

theorem skipsBlanks_skipBlank_bind (f : Option Char → Scan α) : SkipsBlanks (skipBlank >>= f) := by
  intro c ws t hc hws ht
  obtain ⟨c1, e, h1, hb1, hd1⟩ := skipBlank_blanks_bind f hc hws ht
  refine ⟨c1, e.trans ?_, h1, hb1, hd1⟩
  rw [run_skipBlank_bind f (h1 ▸ ht), h1]

theorem SkipsBlanks.bind {m : Scan α} (h : SkipsBlanks m) (f : α → Scan β) :
    SkipsBlanks (m >>= f) := by
  intro c ws t hc hws ht
  obtain ⟨c1, e, h1, hb1, hd1⟩ := h c ws t hc hws ht
  refine ⟨c1, ?_, h1, hb1, hd1⟩
  simp only [ExceptT.run_bind, StateT.run_bind, e]

theorem SkipsBlanks.settle {m : Scan α} (h : SkipsBlanks m) : SkipsBlanks (settle m) := by
  intro c ws t hc hws ht
  obtain ⟨c1, e, h1, hb1, hd1⟩ := h c ws t hc hws ht
  have e' : StateT.run m c = StateT.run m c1 := e
  refine ⟨c1, ?_, h1, hb1, hd1⟩
  simp only [Scan.settle, MonadExcept.tryCatch, tryCatchThe, MonadExceptOf.tryCatch,
    ExceptT.tryCatch, ExceptT.run_mk, StateT.run_bind, e']

/-- A step that skips blanks first reads its value after blanks too. -/
theorem ReadsAt.blanks {m : Scan α} {a : α} {t ws : List Char} {depth : Nat} (hs : SkipsBlanks m)
    (h : ReadsAt m a t depth) (ht : ∃ ch more, t = ch :: more ∧ isBlankChar ch = false)
    (hws : Blanks ws) : ReadsAt m a (ws ++ t) depth := by
  intro c rest hc hend hb hd
  obtain ⟨ch, more, rfl, hch⟩ := ht
  obtain ⟨c1, e, h1, hb1, hd1⟩ := hs c ws (ch :: more ++ rest) (by rw [hc, List.append_assoc])
    hws (by simpa using hch)
  have hlen := lt_budget_of_suffix (by rw [h1, hc]; simp) hb1 hb
  obtain ⟨c', e', hr, hb', hd'⟩ := h c1 rest h1 hend hlen (hd1.trans hd)
  exact ⟨c', e.trans e', hr, hb'.trans hb1, hd'.trans hd1⟩

end Blanks

/-! ## Strings -/

section Strings

/-- The character an escape letter other than `u` stands for. -/
def letterChar : Char → Char
  | 'b' => Char.ofNat 8 | 'f' => Char.ofNat 12 | 'n' => '\n' | 'r' => '\r' | 't' => '\t'
  | x => x

theorem escape_letter {acc more : List Char} {c : Cursor} {x : Char} (hc : c.rest = x :: more)
    (hx : escapeLetters.contains x = true) (hu : x ≠ 'u') :
    Gives (escape acc) c (letterChar x :: acc) more := by
  unfold escape
  refine (peek_bind _ c).trans fun c1 h1 _ hd1 => ?_
  rw [hc, List.head?_cons]
  simp only [hx, Bool.not_true, Bool.false_eq_true, if_false]
  refine (eat_bind _ (h1.trans hc)).trans fun c2 h2 _ hd2 => ?_
  rw [← hd1, ← hd2, ← h2]
  split
  case h_1 | h_2 | h_3 | h_4 | h_5 => exact Gives.pure _ c2
  case h_6 => exact absurd rfl hu
  case h_7 =>
    have hkeep : letterChar x = x := by
      unfold letterChar
      split <;> simp_all
    rw [hkeep]
    exact Gives.pure _ c2

/-- The four hexadecimal digits written after `\u` for a code point. -/
def hexQuad (n : Nat) : List Char :=
  List.replicate (4 - (Nat.toDigits 16 n).length) '0' ++ Nat.toDigits 16 n

/-- The code points of control characters: their four digits are hexadecimal and read back. -/
theorem hexQuad_control : ∀ n < 32, (hexQuad n).length = 4 ∧
    ((hexQuad n).all fun ch =>
      ch.isDigit || decide ('a' ≤ ch) && decide (ch ≤ 'f') || decide ('A' ≤ ch) && decide (ch ≤ 'F')) =
      true ∧
    (hexQuad n).foldl (fun n ch =>
      n * 16 + if ch.isDigit = true then ch.toNat - 48 else if ch ≤ 'F' then ch.toNat - 55
        else ch.toNat - 87) 0 = n := by
  decide

/-- The digits of a control character's code point read back as that code point. -/
theorem hex4_hexQuad {n : Nat} {more : List Char} {c : Cursor} (hn : n < 32)
    (hc : c.rest = hexQuad n ++ more) : Gives hex4 c n more := by
  obtain ⟨hlen, hhex, hval⟩ := hexQuad_control n hn
  have htake : (hexQuad n ++ more).take 4 = hexQuad n := by
    rw [List.take_append_of_le_length (by omega), List.take_of_length_le (by omega)]
  unfold hex4
  refine (get_bind _ c).trans fun c1 h1 _ hd1 => ?_
  simp only [hc, htake, hlen, hhex, beq_self_eq_true, Bool.and_self, if_true, hval]
  rw [← hlen, ← hd1]
  exact (eatMany_gives (h1.trans hc)).seq_pure n

/-- `u` and the four digits of a control character's code point stand for that character. -/
theorem escape_control {n : Nat} {acc more : List Char} {c : Cursor} (hn : n < 32)
    (hc : c.rest = 'u' :: (hexQuad n ++ more)) :
    Gives (escape acc) c (Char.ofNat n :: acc) more := by
  unfold escape
  refine (peek_bind _ c).trans fun c1 h1 _ hd1 => ?_
  rw [hc, List.head?_cons]
  simp only [show escapeLetters.contains 'u' = true by decide, Bool.not_true, Bool.false_eq_true,
    if_false]
  refine (eat_bind _ (h1.trans hc)).trans fun c2 h2 _ hd2 => ?_
  refine (hex4_hexQuad hn h2).bind.trans fun c3 h3 _ hd3 => ?_
  have hlow : (decide (56320 ≤ n) && decide (n ≤ 57343)) = false := by simp; omega
  have hhigh : (decide (n < 55296) || decide (n > 56319)) = true := by simp; omega
  simp only [hlow, hhigh, Bool.false_eq_true, if_false, if_true]
  rw [← hd1, ← hd2, ← hd3, ← h3]
  exact Gives.pure _ c3

/-- A backslash hands the rest of its escape to `escape`. -/
theorem string_go_backslash {fuel : Nat} {acc acc' tail more : List Char} {c : Cursor}
    (hc : c.rest = '\\' :: tail)
    (hesc : ∀ c' : Cursor, c'.rest = tail → Gives (escape acc) c' acc' more) :
    Leads (string.go (fuel + 1) acc) (string.go fuel acc') c more c.depth := by
  rw [string.go]
  refine (peek_bind _ c).trans fun c1 h1 _ hd1 => ?_
  rw [hc, List.head?_cons]
  refine (eat_bind _ (h1.trans hc)).trans fun c2 h2 _ hd2 => ?_
  refine (hesc c2 h2).bind.trans fun c3 h3 _ hd3 => ?_
  rw [← hd1, ← hd2, ← hd3, ← h3]
  exact Leads.refl _ c3

theorem string_go_plain {fuel : Nat} {acc more : List Char} {c : Cursor} {ch : Char}
    (hc : c.rest = ch :: more) (h1 : ch ≠ '"') (h2 : ch ≠ '\\') (h3 : ¬ ch.toNat < 0x20) :
    Leads (string.go (fuel + 1) acc) (string.go fuel (ch :: acc)) c more c.depth := by
  rw [string.go]
  refine (peek_bind _ c).trans fun c1 h1' _ hd1 => ?_
  rw [hc]
  simp only [List.head?_cons]
  split
  · next h => exact absurd h h3
  · refine (eat_bind _ (h1'.trans hc)).trans fun c2 h2' _ hd2 => ?_
    rw [← hd1, ← hd2, ← h2']
    exact Leads.refl _ c2

/-- Each character, as `escapeChar` writes it, is read back. -/
theorem string_go_escapeChar {fuel : Nat} {acc more : List Char} {c : Cursor} (ch : Char)
    (hc : c.rest = (escapeChar ch).toList ++ more) :
    Leads (string.go (fuel + 1) acc) (string.go fuel (ch :: acc)) c more c.depth := by
  have letter : ∀ x, escapeLetters.contains x = true → x ≠ 'u' → letterChar x = ch →
      c.rest = '\\' :: x :: more →
      Leads (string.go (fuel + 1) acc) (string.go fuel (ch :: acc)) c more c.depth :=
    fun x hx hu hch hc' => string_go_backslash hc' fun _ h' => hch ▸ escape_letter h' hx hu
  have code : ∀ {k : Nat}, ch.toNat = k → Char.ofNat k = ch := fun hk => hk ▸ Char.ofNat_toNat ch
  unfold escapeChar at hc
  split at hc
  · next h =>
    rw [beq_iff_eq] at h
    exact letter '"' (by decide) (by decide) h.symm (by simpa using hc)
  split at hc
  · next h =>
    rw [beq_iff_eq] at h
    exact letter '\\' (by decide) (by decide) h.symm (by simpa using hc)
  split at hc
  · next h =>
    rw [beq_iff_eq] at h
    exact letter 'b' (by decide) (by decide) (code h) (by simpa using hc)
  split at hc
  · next h =>
    rw [beq_iff_eq] at h
    exact letter 'f' (by decide) (by decide) (code h) (by simpa using hc)
  split at hc
  · next h =>
    rw [beq_iff_eq] at h
    exact letter 'n' (by decide) (by decide) h.symm (by simpa using hc)
  split at hc
  · next h =>
    rw [beq_iff_eq] at h
    exact letter 'r' (by decide) (by decide) h.symm (by simpa using hc)
  split at hc
  · next h =>
    rw [beq_iff_eq] at h
    exact letter 't' (by decide) (by decide) h.symm (by simpa using hc)
  split at hc
  · next h =>
    have hc' : c.rest = '\\' :: 'u' :: (hexQuad ch.toNat ++ more) := by simpa [hexQuad] using hc
    exact string_go_backslash hc' fun _ h' => code rfl ▸ escape_control h h'
  · rename_i hquote hback _ _ _ _ _ hlow
    simp only [beq_iff_eq] at hquote hback
    exact string_go_plain (by simpa using hc) hquote hback hlow

/-- A string's characters as `quote` writes them between its quotes. -/
def escaped (cs : List Char) : List Char := cs.flatMap fun ch => (escapeChar ch).toList

theorem length_le_escaped (cs : List Char) : cs.length ≤ (escaped cs).length := by
  induction cs with
  | nil => simp [escaped]
  | cons ch cs ih =>
    have hne : (escapeChar ch).toList ≠ [] := by
      unfold escapeChar
      repeat' split
      all_goals simp
    have hpos := List.length_pos_iff.2 hne
    simp only [escaped, List.flatMap_cons, List.length_append, List.length_cons] at ih ⊢
    omega

theorem quote_toList (s : String) : (quote s).toList = '"' :: (escaped s.toList ++ ['"']) := by
  simp [quote, escaped, String.toList_join, List.flatMap, Function.comp_def]

/-- The loop reads every written character back, up to the closing quote; `acc` holds what was
read before, newest first. -/
theorem string_go_escaped {cs acc more : List Char} {fuel : Nat} {c : Cursor}
    (hc : c.rest = escaped cs ++ '"' :: more) (hfuel : cs.length < fuel) :
    Gives (string.go fuel acc) c (String.ofList (acc.reverse ++ cs)) more := by
  induction cs generalizing acc fuel c with
  | nil =>
    obtain ⟨fuel, rfl⟩ := Nat.exists_eq_add_of_lt hfuel
    rw [string.go]
    refine (peek_bind _ c).trans fun c1 h1 _ hd1 => ?_
    simp only [escaped, List.flatMap_nil, List.nil_append] at hc
    rw [hc, List.head?_cons]
    refine (eat_bind _ (h1.trans hc)).trans fun c2 h2 _ hd2 => ?_
    rw [← hd1, ← hd2, ← h2, List.append_nil]
    exact Gives.pure _ c2
  | cons ch cs ih =>
    obtain ⟨fuel, rfl⟩ : ∃ f, fuel = f + 1 := ⟨fuel - 1, by simp at hfuel; omega⟩
    have hc' : c.rest = (escapeChar ch).toList ++ (escaped cs ++ '"' :: more) := by
      simp [hc, escaped]
    refine (string_go_escapeChar ch hc').trans fun c1 h1 _ hd1 => ?_
    have hrest := @ih (ch :: acc) fuel c1 h1 (by simp at hfuel; omega)
    rw [← hd1, show acc.reverse ++ ch :: cs = (ch :: acc).reverse ++ cs by simp]
    exact hrest

/-- A string's body and closing quote, as `quote` writes them, read back as the string. -/
theorem string_escaped {cs more : List Char} {c : Cursor}
    (hc : c.rest = escaped cs ++ '"' :: more) (hb : c.rest.length < c.budget) :
    Gives string c (String.ofList cs) more := by
  have hlen : cs.length < c.budget := by
    have := length_le_escaped cs
    rw [hc, List.length_append, List.length_cons] at hb
    omega
  unfold string
  refine (get_bind _ c).trans fun c1 h1 hb1 hd1 => ?_
  rw [← hd1, show cs = ([] : List Char).reverse ++ cs from rfl]
  exact @string_go_escaped cs [] more c.budget c1 (h1.trans hc) hlen

/-- A quoted string read from its opening quote on, handed to what follows. -/
theorem eat_string_bind {β : Type} (f : String → Scan β) {s : String} {more : List Char}
    {c : Cursor} (hc : c.rest = (quote s).toList ++ more) (hb : c.rest.length < c.budget) :
    Leads (do eat; let x ← string; f x) (f s) c more c.depth := by
  rw [quote_toList, List.cons_append, List.append_assoc, List.singleton_append] at hc
  refine (eat_bind _ hc).trans fun c1 h1 hb1 hd1 => ?_
  have hb1' : c1.rest.length < c1.budget := by
    rw [h1, hb1]
    rw [hc, List.length_cons] at hb
    omega
  have h := (string_escaped h1 hb1').bind (f := f)
  rw [String.ofList_toList, hd1] at h
  exact h

end Strings

/-! ## Integers -/

section Integers

/-- `absorb` takes every digit while the value built from them stays within the limit. -/
theorem absorb_of_le {limit acc : Nat} {ds : List Nat}
    (h : ds.foldl (fun a d => a * 10 + d) acc ≤ limit) :
    absorb limit acc ds = (ds.foldl (fun a d => a * 10 + d) acc, ds.length) := by
  induction ds generalizing acc with
  | nil => rfl
  | cons d ds ih =>
    -- the value only grows as digits are added
    have hgrow : ∀ (ds : List Nat) (a : Nat), a ≤ ds.foldl (fun a d => a * 10 + d) a := by
      intro ds
      induction ds with
      | nil => intro a; exact le_refl a
      | cons e es ihe => intro a; exact le_trans (by omega) (ihe (a * 10 + e))
    rw [List.foldl_cons] at h
    have hstep : ¬ acc * 10 + d > limit := by
      have := hgrow ds (acc * 10 + d)
      omega
    rw [absorb, if_neg hstep, ih h]
    rfl

theorem digitsValue_lt {ds : List Char} (h : ∀ c ∈ ds, c.isDigit = true) :
    digitsValue ds < 10 ^ ds.length := by
  induction ds with
  | nil => decide
  | cons d ds ih =>
    have hd := h d List.mem_cons_self
    have hds := ih fun c hc => h c (List.mem_cons_of_mem d hc)
    have hd9 : d.toNat - 48 ≤ 9 := by
      simp only [Char.isDigit, Bool.and_eq_true, decide_eq_true_eq] at hd
      have : d.toNat ≤ 57 := hd.2
      omega
    rw [← List.singleton_append, digitsValue_append,
      show ([d] ++ ds).length = ds.length + 1 by simp, pow_succ]
    have hone : digitsValue [d] = d.toNat - 48 := by simp [digitsValue]
    rw [hone]
    nlinarith

/-- A positive number is written without a leading zero. -/
theorem toDigits_head_ne_zero {n : Nat} (hn : 0 < n) {d : Char} {ds : List Char}
    (h : Nat.toDigits 10 n = d :: ds) : d ≠ '0' := by
  rintro rfl
  have hval : digitsValue ds = n := by
    have := digitsValue_toDigits n
    rw [h, ← List.singleton_append, digitsValue_append,
      show digitsValue ['0'] = 0 from rfl] at this
    simpa using this
  have hdig : ∀ c ∈ ds, c.isDigit = true := fun c hc =>
    isDigit_of_mem_toDigits (h ▸ List.mem_cons_of_mem _ hc)
  have hlt := digitsValue_lt hdig
  rw [hval] at hlt
  cases ds with
  | nil => simp at hlt; omega
  | cons e es =>
    have := length_toDigits_le hlt (by simp)
    rw [h] at this
    simp at this

/-- The values of the digits in front, which a non-digit ends. -/
theorem digitsAhead_gives {ds rest : List Char} {c : Cursor} (hc : c.rest = ds ++ rest)
    (hds : ∀ ch ∈ ds, ch.isDigit = true) (hrest : ∀ ch ∈ rest.head?, ch.isDigit = false) :
    Gives digitsAhead c (ds.map fun ch => ch.toNat - 48) c.rest := by
  have htake : (ds ++ rest).takeWhile Char.isDigit = ds := by
    rw [List.takeWhile_append_of_pos hds]
    cases rest with
    | nil => simp
    | cons ch rest => simp [hrest ch rfl]
  unfold digitsAhead
  refine (get_bind _ c).trans fun c1 h1 _ hd1 => ?_
  have hvalues : (c.rest.takeWhile Char.isDigit).map (fun ch => ch.toNat - 48) =
      ds.map fun ch => ch.toNat - 48 := by
    rw [hc, htake]
  rw [hvalues, ← h1, ← hd1]
  exact Leads.refl _ c1

theorem integer_digits {positive : Bool} {n : Nat} {rest : List Char} {c : Cursor}
    (hn : n ≤ u64Max) (hc : c.rest = Nat.toDigits 10 n ++ rest)
    (hrest : ∀ ch ∈ rest.head?, ch.isDigit = false) :
    Leads (integer positive) (numberTail positive n) c rest c.depth := by
  rcases Nat.eq_zero_or_pos n with rfl | hpos
  · -- zero is the one number written with a leading zero
    have hc0 : c.rest = '0' :: rest := hc
    unfold integer
    refine (peek_bind _ c).trans fun c1 h1 _ hd1 => ?_
    simp only [hc0, List.head?_cons]
    refine (eat_bind _ (h1.trans hc0)).trans fun c2 h2 _ hd2 => ?_
    refine (peek_bind _ c2).trans fun c3 h3 _ hd3 => ?_
    have hstay := Leads.stay (numberTail positive 0) (h3.trans h2) (hd3.trans (hd2.trans hd1))
    simp only [h2]
    cases rest with
    | nil => exact hstay
    | cons ch more =>
      simp only [List.head?_cons, hrest ch rfl, Bool.false_eq_true, if_false]
      exact hstay
  · obtain ⟨d, ds, hds⟩ := List.exists_cons_of_ne_nil (@Nat.toDigits_ne_nil n 10)
    have hd0 := toDigits_head_ne_zero hpos hds
    unfold integer
    refine (peek_bind _ c).trans fun c1 h1 _ hd1 => ?_
    have hdig : ∀ ch ∈ d :: ds, ch.isDigit = true := fun ch hch =>
      isDigit_of_mem_toDigits (hds ▸ hch)
    rw [hc, hds]
    simp only [List.cons_append, List.head?_cons, hdig d List.mem_cons_self, Bool.not_true,
      Bool.false_eq_true, if_false]
    refine (eat_bind _ (h1.trans (hc.trans (by rw [hds, List.cons_append])))).trans
      fun c2 h2 _ hd2 => ?_
    refine (digitsAhead_gives h2 (fun ch hch => hdig ch (List.mem_cons_of_mem d hch)) hrest).bind.trans
      fun c3 h3 _ hd3 => ?_
    have habs : absorb u64Max (d.toNat - 48) (ds.map fun ch => ch.toNat - 48) = (n, ds.length) := by
      have hval : (ds.map fun ch => ch.toNat - 48).foldl (fun a x => a * 10 + x) (d.toNat - 48) = n := by
        have := digitsValue_toDigits n
        rw [hds] at this
        simpa [digitsValue, List.foldl_map] using this
      rw [absorb_of_le (hval ▸ hn), hval, List.length_map]
    simp only [habs, List.length_map, Nat.lt_irrefl, if_false]
    refine (eatMany_gives (h3.trans h2)).bind.trans fun c4 h4 _ hd4 => ?_
    rw [← h4, ← hd1, ← hd2, ← hd3, ← hd4]
    exact Leads.refl _ c4

/-- With no fraction or exponent after it, a number is the integer its digits gave. -/
theorem numberTail_end {positive : Bool} {n : Nat} {c : Cursor} (h : NumberEnd c.rest) :
    Leads (numberTail positive n)
      (if positive then pure (.nat n) else if n == 0 then pure (.float (-0.0))
        else if n ≤ Nat.pow 2 63 then pure (.neg (-(n : Int)))
        else pure (.float (-(Binary.ofDecimal false n 0)))) c c.rest c.depth := by
  unfold numberTail
  refine (peek_bind _ c).trans fun c1 h1 _ hd1 => ?_
  have hstay := Leads.stay (if positive then pure (.nat n) else if n == 0 then pure (.float (-0.0))
    else if n ≤ Nat.pow 2 63 then pure (.neg (-(n : Int)))
    else (pure (.float (-(Binary.ofDecimal false n 0))) : Scan Number)) h1 hd1
  cases hc : c.rest with
  | nil => simpa [hc] using hstay
  | cons ch more =>
    obtain ⟨-, hdot, he, hE⟩ := h ch (by simp [hc])
    simp only [List.head?_cons]
    split
    · next heq => exact absurd (Option.some.inj heq) hdot
    · next heq => exact absurd (Option.some.inj heq) he
    · next heq => exact absurd (Option.some.inj heq) hE
    · simpa [hc] using hstay

/-- A natural number that fits 64 bits, written in full, reads back as itself. -/
theorem integer_nat {n : Nat} {rest : List Char} {c : Cursor} (hn : n ≤ u64Max)
    (hc : c.rest = Nat.toDigits 10 n ++ rest) (hend : NumberEnd rest) :
    Gives (integer true) c (.nat n) rest := by
  refine (integer_digits hn hc fun ch hch => (hend ch hch).1).trans fun c' hr _ hd => ?_
  have h := @numberTail_end true n c' (hr ▸ hend)
  rw [if_pos rfl, hr, hd] at h
  exact h

/-- After a minus sign, the digits of a number from 1 to `2 ^ 63` read back as its negation. -/
theorem integer_neg {n : Nat} {rest : List Char} {c : Cursor} (hpos : 0 < n) (hn : n ≤ 2 ^ 63)
    (hc : c.rest = Nat.toDigits 10 n ++ rest) (hend : NumberEnd rest) :
    Gives (integer false) c (.neg (-(n : Int))) rest := by
  have hu : n ≤ u64Max := le_trans hn (by decide)
  refine (integer_digits hu hc fun ch hch => (hend ch hch).1).trans fun c' hr _ hd => ?_
  have h := @numberTail_end false n c' (hr ▸ hend)
  have hn' : n ≤ Nat.pow 2 63 := hn
  simp only [Bool.false_eq_true, if_false, beq_iff_eq, Nat.pos_iff_ne_zero.mp hpos, hn', if_true,
    hr, hd] at h
  exact h

end Integers

/-! ## Separators and brackets -/

/-- What stands before an element or a key: nothing before the first, a comma before the others. -/
def lead (first : Bool) : List Char := if first then [] else [',']

/-- A comma where one is due, then blanks, then the first character of an item. -/
theorem nextElement_item {first : Bool} {c : Cursor} {ws : List Char} {ch : Char}
    {more : List Char} (hws : Blanks ws) (hc : c.rest = lead first ++ ws ++ ch :: more)
    (hb : isBlankChar ch = false) (hne : ch ≠ ']') :
    Gives (nextElement first) c true (ch :: more) := by
  cases first with
  | true =>
    have hc' : c.rest = ws ++ ch :: more := by simpa [lead] using hc
    unfold nextElement
    refine (skipBlank_blanks_bind _ hc' hws (by simp [hb])).trans fun c1 h1 _ hd1 => ?_
    simp only [List.head?_cons, if_true]
    split
    · next heq => exact absurd (Option.some.inj heq) hne
    case h_2 | h_3 =>
      rw [pure_bind]
      split
      · next heq => exact absurd (Option.some.inj heq) hne
      · exact Leads.stay _ h1 hd1
      · next heq => exact absurd heq (Option.some_ne_none ch)
    case h_4 heq => exact absurd heq (Option.some_ne_none ch)
  | false =>
    have hc' : c.rest = ',' :: (ws ++ ch :: more) := by simpa [lead] using hc
    unfold nextElement
    refine (skipBlank_bind _ (by simp [hc', isBlankChar])).trans fun c1 h1 _ hd1 => ?_
    simp only [hc', List.head?_cons, Bool.false_eq_true, if_false]
    refine (eat_bind _ (h1.trans hc')).trans fun c2 h2 _ hd2 => ?_
    refine (skipBlank_blanks_bind _ h2 hws (by simp [hb])).trans fun c3 h3 _ hd3 => ?_
    rw [List.head?_cons]
    split
    · next heq => exact absurd (Option.some.inj heq) hne
    · exact Leads.stay _ h3 (hd3.trans (hd2.trans hd1))
    · next heq => exact absurd heq (Option.some_ne_none ch)

theorem nextElement_end (first : Bool) {c : Cursor} {ws more : List Char} (hws : Blanks ws)
    (hc : c.rest = ws ++ ']' :: more) : Gives (nextElement first) c false (']' :: more) := by
  unfold nextElement
  refine (skipBlank_blanks_bind _ hc hws (by simp [isBlankChar])).trans fun c1 h1 _ hd1 => ?_
  simp only [List.head?_cons]
  exact Leads.stay _ h1 hd1

/-- A comma where one is due, then blanks, then a quoted key. -/
theorem nextKey_key {first : Bool} {k : String} {ws more : List Char} {c : Cursor}
    (hws : Blanks ws) (hc : c.rest = lead first ++ ws ++ (quote k).toList ++ more)
    (hb : c.rest.length < c.budget) :
    Gives (nextKey first) c (some k) more := by
  have hhead : ((quote k).toList ++ more).head? = some '"' := by simp [quote_toList]
  have hfront : ∀ ch ∈ ((quote k).toList ++ more).head?, isBlankChar ch = false := by
    simp [hhead, isBlankChar]
  cases first with
  | true =>
    have hc' : c.rest = ws ++ ((quote k).toList ++ more) := by simpa [lead] using hc
    unfold nextKey
    refine (skipBlank_blanks_bind _ hc' hws hfront).trans fun c1 h1 hb1 hd1 => ?_
    have hlen := lt_budget_of_suffix (by rw [h1, hc']; simp) hb1 hb
    simp only [hhead, if_true, pure_bind]
    split
    · next heq => exact absurd (Option.some.inj heq) (by decide)
    · next heq => exact absurd (Option.some.inj heq) (by decide)
    · rw [← hd1]
      exact (eat_string_bind _ h1 hlen).trans fun c2 h2 _ hd2 => Leads.stay _ h2 hd2
    · next heq => exact absurd heq (Option.some_ne_none _)
  | false =>
    have hc' : c.rest = ',' :: (ws ++ ((quote k).toList ++ more)) := by simpa [lead] using hc
    unfold nextKey
    refine (skipBlank_bind _ (by simp [hc', isBlankChar])).trans fun c1 h1 hb1 hd1 => ?_
    simp only [hc', List.head?_cons, Bool.false_eq_true, if_false]
    refine (eat_bind _ (h1.trans hc')).trans fun c2 h2 hb2 hd2 => ?_
    refine (skipBlank_blanks_bind _ h2 hws hfront).trans fun c3 h3 hb3 hd3 => ?_
    simp only [hhead]
    have hb3' := lt_budget_of_suffix (by rw [h3, hc']; simp) (hb3.trans (hb2.trans hb1)) hb
    rw [← hd1, ← hd2, ← hd3]
    exact (eat_string_bind _ h3 hb3').trans fun c4 h4 _ hd4 => Leads.stay _ h4 hd4

theorem nextKey_end (first : Bool) {c : Cursor} {ws more : List Char} (hws : Blanks ws)
    (hc : c.rest = ws ++ '}' :: more) : Gives (nextKey first) c none ('}' :: more) := by
  unfold nextKey
  refine (skipBlank_blanks_bind _ hc hws (by simp [isBlankChar])).trans fun c1 h1 _ hd1 => ?_
  simp only [List.head?_cons]
  exact Leads.stay _ h1 hd1

theorem colon_gives {c : Cursor} {more : List Char} (hc : c.rest = ':' :: more) :
    Gives colon c () more := by
  unfold colon
  refine (skipBlank_bind _ (by simp [hc, isBlankChar])).trans fun c1 h1 _ hd1 => ?_
  simp only [hc, List.head?_cons]
  rw [← hd1]
  exact eat_gives (h1.trans hc)

theorem endArray_gives {c : Cursor} {more : List Char} (hc : c.rest = ']' :: more) :
    Gives endArray c () more := by
  unfold endArray
  refine (skipBlank_bind _ (by simp [hc, isBlankChar])).trans fun c1 h1 _ hd1 => ?_
  simp only [hc, List.head?_cons]
  rw [← hd1]
  exact eat_gives (h1.trans hc)

theorem endObject_gives {c : Cursor} {more : List Char} (hc : c.rest = '}' :: more) :
    Gives endObject c () more := by
  unfold endObject
  refine (skipBlank_bind _ (by simp [hc, isBlankChar])).trans fun c1 h1 _ hd1 => ?_
  simp only [hc, List.head?_cons]
  rw [← hd1]
  exact eat_gives (h1.trans hc)
/-! ## Arrays -/

section Arrays

variable {α : Type}

/-- A text that can stand as an item of an array: it starts with a character that is neither a
blank nor a closing bracket. -/
def StartsItem (t : List Char) : Prop :=
  ∃ ch more, t = ch :: more ∧ isBlankChar ch = false ∧ ch ≠ ']'

/-- The loop that reads the items of an array with `elem`, which is given the fuel left; `acc`
holds the items read so far, newest first. -/
def arrayLoop (elem : Nat → Scan α) : Nat → Bool → List α → Scan (List α)
  | 0, _, _ => failHere .recursionLimit
  | fuel + 1, first, acc => do
    if ← nextElement first then arrayLoop elem fuel false ((← elem fuel) :: acc)
    else pure acc.reverse

/-- One item: after its lead and its blanks, `elem` reads it, and the loop goes on with it
kept. -/
theorem arrayLoop_step {elem : Nat → Scan α} {depth fuel : Nat} {first : Bool} {acc : List α}
    {x : α} {ws t rest : List Char} {c : Cursor} (hws : Blanks ws) (ht : StartsItem t)
    (hx : ReadsAt (elem fuel) x t depth) (hc : c.rest = lead first ++ ws ++ t ++ rest)
    (hend : NumberEnd rest) (hb : c.rest.length < c.budget) (hd : c.depth = depth) :
    Leads (arrayLoop elem (fuel + 1) first acc) (arrayLoop elem fuel false (x :: acc)) c rest depth := by
  obtain ⟨ch, more, rfl, hblank, hne⟩ := ht
  rw [arrayLoop]
  have hc' : c.rest = lead first ++ ws ++ ch :: (more ++ rest) := by
    rw [hc]
    simp
  refine (nextElement_item hws hc' hblank hne).bind.trans fun c1 h1 hb1 hd1 => ?_
  rw [if_pos rfl]
  have hlen := lt_budget_of_suffix (by rw [h1, hc]; simp [List.suffix_append_of_suffix]) hb1 hb
  refine (hx c1 rest (by rw [h1, List.cons_append]) hend hlen (hd1.trans hd)).bind.trans
    fun c2 h2 _ hd2 => ?_
  exact Leads.stay _ h2 (hd2.trans (hd1.trans hd))

theorem numberEnd_blank {w : Char} (hw : isBlankChar w = true) (more : List Char) :
    NumberEnd (w :: more) := by
  intro x hx
  obtain rfl : x = w := by simpa using hx.symm
  simp only [isBlankChar, Bool.or_eq_true, beq_iff_eq] at hw
  rcases hw with ((rfl | rfl) | rfl) | rfl <;> decide

theorem numberEnd_blanks {ws rest : List Char} (hws : Blanks ws) (h : NumberEnd rest) :
    NumberEnd (ws ++ rest) := by
  cases ws with
  | nil => exact h
  | cons w ws => exact numberEnd_blank (hws w List.mem_cons_self) _

/-- What follows an item: the next item after its comma, or the closing bracket after blanks. -/
theorem numberEnd_items {β : Type} (ys : List β) (text : β → List Char) {ws wsEnd : List Char}
    (hwsEnd : Blanks wsEnd) (rest : List Char) :
    NumberEnd ((ys.map fun y => ',' :: (ws ++ text y)).flatten ++ wsEnd ++ ']' :: rest) := by
  cases ys with
  | nil => exact numberEnd_blanks hwsEnd (numberEnd_punct (.inr (.inl rfl)) rest)
  | cons y ys => exact numberEnd_punct (.inl rfl) _

/-- Items after the first, each the text of a source after its comma and blanks, are read up to
the closing bracket. -/
theorem arrayLoop_more {β : Type} {elem : Nat → Scan α} {depth : Nat} (ys : List β) (val : β → α)
    (text : β → List Char)
    (hys : ∀ y ∈ ys, StartsItem (text y) ∧ ∀ f, 0 < f → ReadsAt (elem f) (val y) (text y) depth)
    {ws wsEnd : List Char} (hws : Blanks ws) (hwsEnd : Blanks wsEnd) {fuel : Nat} {acc : List α}
    {c : Cursor} {rest : List Char} (hfuel : ys.length < fuel)
    (hc : c.rest = (ys.map fun y => ',' :: (ws ++ text y)).flatten ++ wsEnd ++ ']' :: rest)
    (hb : c.rest.length < c.budget) (hd : c.depth = depth) :
    Gives (arrayLoop elem fuel false acc) c (acc.reverse ++ ys.map val) (']' :: rest) := by
  induction ys generalizing fuel acc c with
  | nil =>
    obtain ⟨fuel, rfl⟩ : ∃ f, fuel = f + 1 := ⟨fuel - 1, by omega⟩
    rw [List.map_nil, List.flatten_nil, List.nil_append] at hc
    rw [arrayLoop, List.map_nil, List.append_nil]
    refine (nextElement_end false hwsEnd hc).bind.trans fun c1 h1 _ hd1 => ?_
    rw [if_neg Bool.false_ne_true, ← hd1]
    exact Leads.stay _ h1 rfl
  | cons y ys ih =>
    obtain ⟨hstart, hread⟩ := hys y List.mem_cons_self
    obtain ⟨fuel, rfl⟩ : ∃ f, fuel = f + 1 := ⟨fuel - 1, by omega⟩
    have hc' : c.rest = lead false ++ ws ++ text y ++
        ((ys.map fun y => ',' :: (ws ++ text y)).flatten ++ wsEnd ++ ']' :: rest) := by
      simp [hc, lead]
    refine (arrayLoop_step hws hstart (hread fuel (by simp at hfuel; omega)) hc'
      (numberEnd_items ys text hwsEnd rest) hb hd).trans fun c1 h1 hb1 hd1 => ?_
    have hlen := lt_budget_of_suffix (by rw [h1, hc']; simp [List.suffix_append_of_suffix]) hb1 hb
    rw [List.map_cons, show acc.reverse ++ val y :: ys.map val =
      (val y :: acc).reverse ++ ys.map val by simp, hd, ← hd1]
    exact ih (fun y' hy' => hys y' (List.mem_cons_of_mem _ hy')) (by simp at hfuel; omega) h1 hlen hd1

theorem intercalate_comma (t : List Char) (ts : List (List Char)) :
    [','].intercalate (t :: ts) = t ++ (ts.map (',' :: ·)).flatten := by
  induction ts generalizing t with
  | nil => simp
  | cons u ts ih => rw [List.intercalate_cons_cons, ih u]; simp

theorem length_le_intercalate {ts : List (List Char)} (h : ∀ t ∈ ts, t ≠ []) :
    ts.length ≤ ([','].intercalate ts).length := by
  induction ts with
  | nil => simp
  | cons t ts ih =>
    have ht := List.length_pos_iff.2 (h t List.mem_cons_self)
    have hts := ih fun u hu => h u (List.mem_cons_of_mem t hu)
    cases ts with
    | nil => simp; omega
    | cons u us =>
      rw [List.intercalate_cons_cons, List.length_append, List.length_append]
      simp only [List.length_cons] at hts ⊢
      omega

theorem length_le_intercalate_of_mem {t : List Char} {ts : List (List Char)} (ht : t ∈ ts) :
    t.length ≤ ([','].intercalate ts).length := by
  induction ts with
  | nil => exact absurd ht List.not_mem_nil
  | cons u ts ih =>
    rw [intercalate_comma, List.length_append]
    rcases List.mem_cons.1 ht with rfl | ht'
    · omega
    · have hle := ih ht'
      cases ts with
      | nil => exact absurd ht' List.not_mem_nil
      | cons v vs =>
        rw [intercalate_comma] at hle
        simp only [List.map_cons, List.flatten_cons, List.length_append, List.length_cons] at hle ⊢
        omega

/-- All items of an array, from the first, each the text of a source after the same blanks, are
read up to the closing bracket and the blanks before it. -/
theorem arrayLoop_items {β : Type} {elem : Nat → Scan α} {depth : Nat} (ys : List β) (val : β → α)
    (text : β → List Char)
    (hys : ∀ y ∈ ys, StartsItem (text y) ∧ ∀ f, 0 < f → ReadsAt (elem f) (val y) (text y) depth)
    {ws wsEnd : List Char} (hws : Blanks ws) (hwsEnd : Blanks wsEnd) {fuel : Nat} {c : Cursor}
    {rest : List Char} (hfuel : ys.length < fuel)
    (hc : c.rest = [','].intercalate (ys.map fun y => ws ++ text y) ++ wsEnd ++ ']' :: rest)
    (hb : c.rest.length < c.budget) (hd : c.depth = depth) :
    Gives (arrayLoop elem fuel true []) c (ys.map val) (']' :: rest) := by
  cases ys with
  | nil =>
    obtain ⟨fuel, rfl⟩ : ∃ f, fuel = f + 1 := ⟨fuel - 1, by omega⟩
    rw [List.map_nil, List.intercalate_nil, List.nil_append] at hc
    rw [arrayLoop]
    refine (nextElement_end true hwsEnd hc).bind.trans fun c1 h1 _ hd1 => ?_
    rw [if_neg Bool.false_ne_true, ← hd1]
    exact Leads.stay _ h1 rfl
  | cons y ys =>
    obtain ⟨hstart, hread⟩ := hys y List.mem_cons_self
    obtain ⟨fuel, rfl⟩ : ∃ f, fuel = f + 1 := ⟨fuel - 1, by simp at hfuel; omega⟩
    have hc' : c.rest = lead true ++ ws ++ text y ++
        ((ys.map fun y => ',' :: (ws ++ text y)).flatten ++ wsEnd ++ ']' :: rest) := by
      rw [hc, List.map_cons, intercalate_comma, List.map_map]
      simp [lead, Function.comp_def]
    refine (arrayLoop_step hws hstart (hread fuel (by simp at hfuel; omega)) hc'
      (numberEnd_items ys text hwsEnd rest) hb hd).trans fun c1 h1 hb1 hd1 => ?_
    have hlen := lt_budget_of_suffix (by rw [h1, hc']; simp [List.suffix_append_of_suffix]) hb1 hb
    rw [List.map_cons, show val y :: ys.map val = [val y].reverse ++ ys.map val from rfl,
      hd, ← hd1]
    exact arrayLoop_more ys val text (fun y' hy' => hys y' (List.mem_cons_of_mem _ hy')) hws hwsEnd
      (by simp at hfuel; omega) h1 hlen hd1

end Arrays

/-! ## Values -/

section Values

theorem value_elements_eq (fuel : Nat) (first : Bool) (acc : List Value) :
    value.elements fuel first acc = arrayLoop value fuel first acc := by
  induction fuel generalizing first acc with
  | zero => rfl
  | succ fuel ih =>
    rw [value.elements, arrayLoop]
    simp only [ih]

theorem value_null (fuel depth : Nat) : ReadsAt (value (fuel + 1)) .null "null".toList depth := by
  intro c rest hc _ _ hd
  have hc' : c.rest = 'n' :: ("ull".toList ++ rest) := hc
  rw [value]
  refine (skipBlank_bind _ (by simp [hc', isBlankChar])).trans fun c1 h1 _ hd1 => ?_
  simp only [hc', List.head?_cons]
  refine (eat_bind _ (h1.trans hc')).trans fun c2 h2 _ hd2 => ?_
  rw [← hd1, ← hd2]
  exact (word_gives h2).seq_pure _

theorem value_string (fuel depth : Nat) (s : String) :
    ReadsAt (value (fuel + 1)) (.string s) (quote s).toList depth := by
  intro c rest hc _ hb _
  have hhead : c.rest.head? = some '"' := by simp [hc, quote_toList]
  rw [value]
  refine (skipBlank_bind _ (by simp [hhead, isBlankChar])).trans fun c1 h1 hb1 hd1 => ?_
  simp only [hhead]
  rw [← hd1]
  exact eat_string_bind (fun x => pure (Value.string x)) (h1.trans hc) (by rw [h1, hb1]; exact hb)

theorem compact_object_toList (es : List (String × Value)) :
    (compact (.object es)).toList =
      '{' :: ([','].intercalate (es.map fun e => (quote e.1).toList ++ ':' :: (compact e.2).toList) ++
        ['}']) := by
  rw [compact]
  simp [Function.comp_def, List.map_attach_eq_pmap]

theorem compact_array_toList (vs : List Value) :
    (compact (.array vs)).toList =
      '[' :: ([','].intercalate (vs.map fun v => (compact v).toList) ++ [']']) := by
  rw [compact]
  simp [Function.comp_def]

/-- An array reads back when each of its items does, one level deeper, whatever blanks stand
before each item and before the closing bracket. -/
theorem value_array_items {vs : List Value} (text : Value → List Char) {ws wsEnd : List Char}
    (hws : Blanks ws) (hwsEnd : Blanks wsEnd) {fuel depth : Nat} (hdepth : 1 < depth)
    (hfuel : vs.length < fuel)
    (hvs : ∀ v ∈ vs, StartsItem (text v) ∧ ∀ f, 0 < f → ReadsAt (value f) v (text v) (depth - 1)) :
    ReadsAt (value (fuel + 1)) (.array vs)
      ('[' :: ([','].intercalate (vs.map fun v => ws ++ text v) ++ wsEnd ++ [']'])) depth := by
  intro c rest hc _ hb hd
  rw [List.cons_append, List.append_assoc, List.append_assoc, List.singleton_append] at hc
  rw [value]
  refine (skipBlank_bind _ (by simp [hc, isBlankChar])).trans fun c1 h1 hb1 hd1 => ?_
  simp only [hc, List.head?_cons]
  refine (enter_bind _ (by omega)).trans fun c2 h2 hb2 hd2 => ?_
  refine (eat_bind _ (h2.trans (h1.trans hc))).trans fun c3 h3 hb3 hd3 => ?_
  rw [value_elements_eq]
  have hlen := lt_budget_of_suffix (by rw [h3, hc]; simp) (hb3.trans (hb2.trans hb1)) hb
  have hloop := arrayLoop_items vs id text hvs hws hwsEnd hfuel
    (by rw [h3, List.append_assoc]) hlen (by omega)
  refine (hloop.closing fun c' hr _ _ => endArray_gives hr).bind.trans fun c4 h4 hb4 hd4 => ?_
  refine (leave_bind _ c4).trans fun c5 h5 _ hd5 => ?_
  rw [List.map_id]
  exact Leads.stay _ (h5.trans h4) (by omega)

end Values

/-! ## Whole texts -/

theorem length_le_utf8Len (cs : List Char) : cs.length ≤ String.utf8Len cs := by
  induction cs with
  | nil => simp
  | cons c cs ih =>
    have := Char.utf8Size_pos c
    simp only [String.utf8Len_cons, List.length_cons]
    omega

theorem length_le_utf8ByteSize (s : String) : s.toList.length ≤ s.utf8ByteSize := by
  have h := length_le_utf8Len s.toList
  rwa [← String.utf8ByteSize_ofList, String.ofList_toList] at h

theorem finish_end {c : Cursor} (hc : c.rest = []) : Gives finish c () [] := by
  unfold finish
  refine (skipBlank_bind _ (by simp [hc])).trans fun c1 h1 _ hd1 => ?_
  simp only [hc, List.head?_nil, Option.isSome_none, Bool.false_eq_true, if_false]
  exact Leads.stay _ (h1.trans hc) hd1

/-- A step that reads a whole text's value, from the text's own budget and the full nesting,
makes the whole text read as that value. -/
theorem runText_of_reads {α : Type} {text : String} {step : Nat → Scan α} {a : α}
    (h : ReadsAt (step (text.utf8ByteSize + 2)) a text.toList 128) : runText text step = .ok a := by
  have hlen : text.toList.length < text.utf8ByteSize + 2 := by
    have := length_le_utf8ByteSize text
    omega
  have hread := h { rest := text.toList, budget := text.utf8ByteSize + 2 } [] (List.append_nil _).symm
    numberEnd_nil hlen rfl
  have hrun : Gives (do let v ← step (text.utf8ByteSize + 2); finish; pure v)
      { rest := text.toList, budget := text.utf8ByteSize + 2 } a [] :=
    hread.bind.trans fun c1 h1 _ hd1 => hd1 ▸ (finish_end h1).seq_pure a
  obtain ⟨c', e, -⟩ := hrun
  simp only [runText]
  rw [e]
  rfl

end ClipSearch.Json.Scan
