import ClipSearch.Proofs.CatalogFiles
import ClipSearch.Proofs.Rounding
/-!
# What a catalog of lines refuses

A catalog of one record per line is read line by line. Blank lines count for nothing
(`foldlM_add_filter`); every other line reads as a clip or fails (`failsToRead`). A success
resets the count of failures in a row and a failure adds one, so the reading stops exactly when
the failures of the lines that count hold a run of a hundred (`foldlM_add_run`); otherwise it
keeps the clips of the lines that read, in order, and counts the lines and the failures
(`foldlM_add_no_run`). After the last line the share of failures is compared with one half as a
quotient of doubles; below `2^53` lines that quotient is above one half exactly when the
failures are more than half of the lines (`half_lt_failureRate_iff`). Together these give what
reading a catalog of lines returns (`readLines_eq`).
-/
namespace ClipSearch.Catalog

open ClipSearch.Text ClipSearch.Decimal.Binary Float.Model Float.Model.UnpackedFloat

/-! ## Lines that count -/

/-- The lines of a catalog that count: those that are not blank. -/
def recordLines (content : String) : List String :=
  (linesOf content).filter fun line => !isBlankText line

theorem find?_eq_none_iff_not_any {s : String} {p : Char → Bool} :
    s.find? p = none ↔ s.toList.any p = false := by
  rw [← String.contains_bool_eq, String.contains_eq_contains_toSlice,
    ← String.Slice.find?_eq_none_iff, String.find?_eq_find?_toSlice, Option.map_eq_none_iff]

/-- A text is blank exactly when all of its characters are. -/
theorem isBlankText_eq_all (s : String) : isBlankText s = s.toList.all isBlank := by
  have hfind : s.find (fun c => !isBlank c) =
      (s.find? fun c => !isBlank c).getD s.endPos := by
    unfold String.find String.Slice.find String.find?
    cases s.toSlice.find? (fun c => !isBlank c) <;> rfl
  unfold isBlankText firstNonBlank
  rw [hfind]
  cases hall : s.toList.all isBlank with
  | true =>
    -- the search finds nothing and ends at the end of the text, where no character stands
    have hnone : s.find? (fun c => !isBlank c) = none :=
      find?_eq_none_iff_not_any.2 (by simpa [List.all_eq_true] using hall)
    rw [hnone, Option.getD_none, String.Pos.get?_endPos]
    rfl
  | false =>
    obtain ⟨pos, hq⟩ : ∃ pos, s.find? (fun c => !isBlank c) = some pos := by
      refine Option.ne_none_iff_exists'.1 fun hq => ?_
      obtain ⟨x, hx, hb⟩ := List.all_eq_false.1 hall
      have hany := List.any_eq_false.1 (find?_eq_none_iff_not_any.1 hq) x hx
      simp_all
    obtain ⟨hne, -, -⟩ := String.find?_bool_eq_some_iff.1 hq
    rw [hq, Option.getD_some, String.Pos.get?_eq_some_get hne]
    rfl

/-- The lines that count in lines joined by line feeds, when none of them holds a line feed or
ends in a carriage return and the last is not empty. -/
theorem recordLines_intercalate {lines : List String} (hfeed : ∀ l ∈ lines, '\n' ∉ l.toList)
    (hret : ∀ l ∈ lines, l.toList.getLast? ≠ some '\r') (hlast : lines.getLast? ≠ some "") :
    recordLines ("\n".intercalate lines) = lines.filter fun l => !isBlankText l := by
  rw [recordLines, linesOf_intercalate hfeed hret hlast]

def failsToRead (line : String) : Bool :=
  match readClip line with
  | .ok _ => false
  | .error _ => true

/-- The clips that the lines which read give, in order. -/
def readableClips (lines : List String) : List Clip :=
  lines.filterMap fun line => (readClip line).toOption

/-- The message that stops the reading at a hundred failures in a row. -/
def runMessage : String :=
  "Too many consecutive parse errors (100) in catalog - file may be corrupted"

/-- The message that refuses a catalog where more than half of the lines failed, with the share
in percent to one decimal. -/
def shareMessage (skipped total : ℕ) : String :=
  "Too many parse failures in catalog: " ++ toString skipped ++ " of " ++ toString total ++
    " lines failed (" ++ ClipSearch.Decimal.fixed 1 (failureRate skipped total * 100.0) ++ "%)"

/-! ## Runs of failures -/

section Runs

variable {n k : ℕ} {rest : List Bool}

/-- A run of `n` failures does not start in fewer than `n` failures followed by a success. -/
theorem not_run_at_start (hk : k < n) :
    ¬ List.replicate n true <+: List.replicate k true ++ false :: rest := by
  induction k generalizing n with
  | zero =>
    obtain ⟨n, rfl⟩ := Nat.exists_eq_succ_of_ne_zero (by omega : n ≠ 0)
    simp [List.replicate_succ]
  | succ k ih =>
    obtain ⟨n, rfl⟩ := Nat.exists_eq_succ_of_ne_zero (by omega : n ≠ 0)
    simpa [List.replicate_succ] using ih (by omega : k < n)

/-- A run of `n` failures never crosses a success that fewer than `n` failures lead up to. -/
theorem replicate_infix_success_iff (hk : k < n) :
    List.replicate n true <:+: List.replicate k true ++ false :: rest ↔
      List.replicate n true <:+: rest := by
  induction k with
  | zero =>
    rw [List.replicate_zero, List.nil_append, List.infix_cons_iff]
    have := @not_run_at_start n 0 rest hk
    simp only [List.replicate_zero, List.nil_append] at this
    simp [this]
  | succ k ih =>
    rw [List.replicate_succ, List.cons_append, List.infix_cons_iff, ← List.cons_append,
      ← List.replicate_succ, ih (by omega)]
    simp [not_run_at_start hk]

theorem replicate_append_failure (k : ℕ) (rest : List Bool) :
    List.replicate k true ++ true :: rest = List.replicate (k + 1) true ++ rest := by
  rw [List.replicate_succ', List.append_assoc, List.singleton_append]

end Runs

/-! ## One line -/

theorem LineTally.add_blank (t : LineTally) {line : String} (h : isBlankText line = true) :
    t.add line = .ok t := by
  rw [LineTally.add, if_pos h]

/-- A line that is not blank and fails to read counts one more failure in a row, and stops the
reading at the hundredth. -/
theorem LineTally.add_failed (t : LineTally) {line : String} (hblank : isBlankText line = false)
    (hfail : failsToRead line = true) :
    t.add line = if t.inRow + 1 ≥ 100 then .error ("Too many consecutive parse errors (" ++
      toString (t.inRow + 1) ++ ") in catalog - file may be corrupted")
      else .ok { t with total := t.total + 1, skipped := t.skipped + 1, inRow := t.inRow + 1 } := by
  unfold failsToRead at hfail
  rw [LineTally.add, hblank]
  cases hread : readClip line with
  | ok c =>
    rw [hread] at hfail
    exact absurd hfail Bool.false_ne_true
  | error e => simp only [Bool.false_eq_true, if_false]

theorem failsToRead_eq_false_iff {line : String} :
    failsToRead line = false ↔ ∃ c, readClip line = .ok c := by
  unfold failsToRead
  split <;> simp_all

theorem readableClips_cons_ok {line : String} {c : Clip} (h : readClip line = .ok c)
    (lines : List String) : readableClips (line :: lines) = c :: readableClips lines := by
  simp [readableClips, h, Except.toOption]

theorem readableClips_cons_failed {line : String} (h : failsToRead line = true)
    (lines : List String) : readableClips (line :: lines) = readableClips lines := by
  unfold failsToRead at h
  split at h
  · exact absurd h Bool.false_ne_true
  · next e heq => simp [readableClips, heq, Except.toOption]

/-! ## All the lines -/

/-- Blank lines count for nothing: tallying the lines is tallying those that are not blank. -/
theorem foldlM_add_filter (lines : List String) (t : LineTally) :
    lines.foldlM LineTally.add t = (lines.filter fun l => !isBlankText l).foldlM LineTally.add t := by
  induction lines generalizing t with
  | nil => rfl
  | cons l ls ih =>
    cases hb : isBlankText l
    · simp [hb, ih]
    · rw [List.foldlM_cons, LineTally.add_blank t hb, List.filter_cons_of_neg (by simp [hb])]
      exact ih t

section Fold

variable {lines : List String}

/-- A hundred failures in a row, counting those the tally is in, stop the reading with its
message: every success before them resets the count, and every failure before them keeps it
below a hundred. -/
theorem foldlM_add_run (hlines : ∀ l ∈ lines, isBlankText l = false) {t : LineTally}
    (ht : t.inRow < 100)
    (hrun : List.replicate 100 true <:+: List.replicate t.inRow true ++ lines.map failsToRead) :
    lines.foldlM LineTally.add t = .error runMessage := by
  induction lines generalizing t with
  | nil =>
    -- with no line left the run would fit in fewer than a hundred failures
    have := hrun.length_le
    simp only [List.map_nil, List.append_nil, List.length_replicate] at this
    omega
  | cons l ls ih =>
    have hl := hlines l List.mem_cons_self
    have hls : ∀ l' ∈ ls, isBlankText l' = false := fun l' h' => hlines l' (List.mem_cons_of_mem l h')
    rw [List.foldlM_cons]
    cases hf : failsToRead l with
    | false =>
      obtain ⟨c, hc⟩ := failsToRead_eq_false_iff.1 hf
      rw [List.map_cons, hf, replicate_infix_success_iff ht] at hrun
      rw [LineTally.add_clip t hl hc]
      exact ih hls (by simp) (by simpa using hrun)
    | true =>
      rw [LineTally.add_failed t hl hf]
      split
      · have h100 : t.inRow + 1 = 100 := by omega
        rw [h100]
        rfl
      · rw [List.map_cons, hf, replicate_append_failure] at hrun
        exact ih hls (by simp only; omega) hrun

/-- Without a hundred failures in a row the reading goes to the last line: it keeps the clips of
the lines that read, newest first, and counts every line and every failure. -/
theorem foldlM_add_no_run (hlines : ∀ l ∈ lines, isBlankText l = false) {t : LineTally}
    (hrun : ¬ List.replicate 100 true <:+: List.replicate t.inRow true ++ lines.map failsToRead) :
    ∃ t', lines.foldlM LineTally.add t = .ok t' ∧
      t'.clipsBack = (readableClips lines).reverse ++ t.clipsBack ∧
      t'.total = t.total + lines.length ∧
      t'.skipped = t.skipped + (lines.map failsToRead).count true := by
  induction lines generalizing t with
  | nil => exact ⟨t, rfl, by simp [readableClips], by simp, by simp⟩
  | cons l ls ih =>
    have hl := hlines l List.mem_cons_self
    have hls : ∀ l' ∈ ls, isBlankText l' = false := fun l' h' => hlines l' (List.mem_cons_of_mem l h')
    -- a run in the lines after this one would be a run here too
    have hlater : ¬ List.replicate 100 true <:+: ls.map failsToRead := fun h =>
      hrun (h.trans ((List.suffix_cons _ _).trans (List.suffix_append _ _)).isInfix)
    rw [List.foldlM_cons]
    cases hf : failsToRead l with
    | false =>
      obtain ⟨c, hc⟩ := failsToRead_eq_false_iff.1 hf
      obtain ⟨t', hfold, hback, htotal, hskip⟩ :=
        @ih hls { t with clipsBack := c :: t.clipsBack, total := t.total + 1, inRow := 0 }
          (by simpa using hlater)
      refine ⟨t', ?_, ?_, ?_, ?_⟩
      · rw [LineTally.add_clip t hl hc]
        exact hfold
      · simp [hback, readableClips_cons_ok hc]
      · simp only [htotal, List.length_cons]
        omega
      · simp [hskip, hf]
    | true =>
      -- the failure is not the hundredth in a row, or the run would be here
      have hbelow : ¬ t.inRow + 1 ≥ 100 := fun hge => hrun (by
        have hsplit : List.replicate (t.inRow + 1) true =
            List.replicate 100 true ++ List.replicate (t.inRow + 1 - 100) true := by
          rw [← List.replicate_add]
          congr 1
          omega
        rw [List.map_cons, hf, replicate_append_failure, hsplit, List.append_assoc]
        exact (List.prefix_append _ _).isInfix)
      obtain ⟨t', hfold, hback, htotal, hskip⟩ :=
        @ih hls { t with total := t.total + 1, skipped := t.skipped + 1, inRow := t.inRow + 1 }
          (by rw [List.map_cons, hf, replicate_append_failure] at hrun; exact hrun)
      refine ⟨t', ?_, ?_, ?_, ?_⟩
      · rw [LineTally.add_failed t hl hf, if_neg hbelow]
        exact hfold
      · simp [hback, readableClips_cons_failed hf]
      · simp only [htotal, List.length_cons]
        omega
      · simp only [hskip, List.map_cons, hf, List.count_cons_self]
        omega

end Fold

/-! ## The share of failures -/

/-- Below `2^53` lines the share of failures is above one half exactly when failures are more
than half of the lines: the quotient of the counts is never within half a unit of the last place
of one half without being one half. -/
theorem half_lt_failureRate_iff {s t : ℕ} (hs : s ≤ t) (ht : t < 2 ^ 53) :
    0.5 < failureRate s t ↔ t < 2 * s := by
  rcases Nat.eq_zero_or_pos s with rfl | hs0
  · simp only [not_half_lt_failureRate_zero, false_iff]
    omega
  obtain ⟨m₁, e₁, h₁, hst₁, hv₁, hd₁⟩ := ofDecimal_count_exact hs0 (by omega)
  obtain ⟨m₂, e₂, h₂, hst₂, hv₂, hd₂⟩ := ofDecimal_count_exact (by omega : 0 < t) ht
  have hs' : (1 : ℚ) ≤ s := by exact_mod_cast hs0
  have ht' : (0 : ℚ) < t := by exact_mod_cast (by omega : 0 < t)
  have hst : (s : ℚ) ≤ t := by exact_mod_cast hs
  have htop : (t : ℚ) < 2 ^ 53 := by exact_mod_cast ht
  have hq := div_finite h₁ h₂ (by
    rw [hv₁, hv₂]
    calc (2 : ℚ) ^ (-1020 : ℤ) ≤ 2 ^ (-53 : ℤ) := zpow_le_zpow_right₀ (by norm_num) (by norm_num)
      _ = 1 / 2 ^ 53 := by norm_num
      _ ≤ 1 / t := one_div_le_one_div_of_le ht' htop.le
      _ ≤ s / t := div_le_div_of_nonneg_right hs' ht'.le)
  rw [hv₁, hv₂] at hq
  have hstored := hq.stored (by
    calc (s : ℚ) / t ≤ 1 := (div_le_one ht').2 hst
      _ < 2 ^ (1023 : ℤ) := one_lt_zpow₀ (by norm_num) (by norm_num))
  obtain ⟨half, hhalf, stored_half, value_half⟩ :
      ∃ u : UnpackedFloat, (0.5 : Float) = toDouble u ∧ Stored u ∧ value u = 1 / 2 :=
    ⟨.finite .positive (2 ^ 52) (-53) (by norm_num), rfl,
      ⟨rfl, by norm_num, by norm_num, by norm_num, fun _ => le_refl _⟩, by norm_num [value]⟩
  unfold failureRate
  rw [hd₁, hd₂, toDouble_div hst₁ hst₂, hhalf, toDouble_lt stored_half hstored,
    lt_iff_value_lt stored_half hstored, value_half]
  constructor
  · intro hlt
    by_contra hge
    have hle : (s : ℚ) / t ≤ 2 ^ (-1 : ℤ) := by
      rw [div_le_iff₀ ht']
      have : (t : ℚ) ≥ 2 * s := by exact_mod_cast Nat.le_of_not_lt hge
      norm_num
      linarith
    have := hq.value_le_two_zpow (by norm_num) hle
    norm_num at this
    linarith
  · intro hlt
    have hmore : (2 : ℚ) ^ (-1 : ℤ) + 2 ^ ((-1 : ℤ) - 53) < s / t := by
      rw [lt_div_iff₀ ht']
      have : (t : ℚ) + 1 ≤ 2 * s := by exact_mod_cast hlt
      norm_num
      linarith
    have := hq.two_zpow_lt_value (by norm_num) hmore
    norm_num at this
    exact this

/-! ## The whole catalog -/

/-- Reading a catalog of lines, when fewer than `2^53` of them are not blank: a hundred failures
in a row among those lines stop it with their message; otherwise more failures than half of
those lines refuse it with their share; otherwise it gives the clips of the lines that read, in
their order. -/
theorem readLines_eq (content : String) (hsize : (recordLines content).length < 2 ^ 53) :
    readLines content =
      if List.replicate 100 true <:+: (recordLines content).map failsToRead then .error runMessage
      else if (recordLines content).length <
          2 * ((recordLines content).map failsToRead).count true then
        .error (shareMessage (((recordLines content).map failsToRead).count true)
          (recordLines content).length)
      else .ok (readableClips (recordLines content)) := by
  have hblank : ∀ l ∈ recordLines content, isBlankText l = false := fun l hl => by
    simpa using (List.mem_filter.1 hl).2
  have hrecord : (linesOf content).filter (fun l => !isBlankText l) = recordLines content := rfl
  unfold readLines
  rw [foldlM_add_filter, hrecord]
  split
  · next hrun =>
    rw [@foldlM_add_run (recordLines content) hblank {} (by decide) (by simpa using hrun)]
    rfl
  · next hrun =>
    obtain ⟨t, hfold, hback, htotal, hskip⟩ :=
      @foldlM_add_no_run (recordLines content) hblank {} (by simpa using hrun)
    simp only [List.append_nil] at hback
    simp only [Nat.zero_add] at htotal hskip
    have hle : t.skipped ≤ t.total := by
      rw [hskip, htotal, ← List.length_map failsToRead]
      exact List.count_le_length
    rw [hfold]
    dsimp only [bind, Except.bind]
    rw [hback, List.reverse_reverse, ← htotal, ← hskip]
    by_cases hrate : t.total < 2 * t.skipped
    · have hpos : t.total > 0 := by omega
      have hhalf : failureRate t.skipped t.total > 0.5 :=
        (half_lt_failureRate_iff hle (htotal ▸ hsize)).2 hrate
      rw [if_pos hrate, if_pos hpos, if_pos hhalf]
      rfl
    · have hhalf : ¬ failureRate t.skipped t.total > 0.5 :=
        fun h => hrate ((half_lt_failureRate_iff hle (htotal ▸ hsize)).1 h)
      rw [if_neg hrate]
      by_cases hpos : t.total > 0
      · rw [if_pos hpos, if_neg hhalf]
        rfl
      · rw [if_neg hpos]
        rfl

/-- Three catalogs of written clips, lines that fail and blank lines. In the first the blank lines
count for nothing and one failure in three lines neither stops nor refuses the reading; in the
second two failures in three refuse it with their share; in the third a hundred failures in a
row stop it, though more than half of the lines would refuse it too. -/
theorem readLines_eq_mixed_lines :
    let c : Clip := { id := 1, songTitle := some "Shine" }
    let ok := Json.compact c.toValue
    let mixed := "\n".intercalate [ok, "", "not a clip", " \t", ok]
    let shared := "\n".intercalate ["not a clip", "", ok, "oops"]
    let run := "\n".intercalate (List.replicate 100 "not a clip" ++ [ok])
    ((recordLines mixed).length < 2 ^ 53 ∧ readLines mixed = .ok [c, c]) ∧
      ((recordLines shared).length < 2 ^ 53 ∧ readLines shared = .error (shareMessage 2 3)) ∧
      ((recordLines run).length < 2 ^ 53 ∧ readLines run = .error runMessage) := by
  intro c ok mixed shared run
  have hc : readClip ok = .ok c :=
    readClip_written .compact
      { id_ge := by decide, id_lt := by decide, duration_le := by decide
        concertDate := fun m hm => by cases hm
        createdAt := fun m hm => by cases hm
        updatedAt := fun m hm => by cases hm
        brands := by decide }
  have hok : isBlankText ok = false := isBlankText_compact_clip c
  have hokFeed : '\n' ∉ ok.toList := lineFeed_not_mem_compact_clip c
  have hokEnd : ok.toList.getLast? = some '}' := getLast?_compact_clip c
  have hokNe : ok ≠ "" := fun h => by
    rw [h] at hokEnd
    cases hokEnd
  have hokFails : failsToRead ok = false := failsToRead_eq_false_iff.2 ⟨c, hc⟩
  have hempty : isBlankText "" = true := by rw [isBlankText_eq_all]; decide
  have htab : isBlankText " \t" = true := by rw [isBlankText_eq_all]; decide
  have hword : isBlankText "not a clip" = false := by rw [isBlankText_eq_all]; decide
  have hoops : isBlankText "oops" = false := by rw [isBlankText_eq_all]; decide
  have hwordFails : failsToRead "not a clip" = true := by decide +kernel
  have hoopsFails : failsToRead "oops" = true := by decide +kernel
  -- no line holds a line feed or ends in a carriage return
  have hsplit : ∀ lines, (∀ l ∈ lines, l ∈ [ok, "", "not a clip", " \t", "oops"]) →
      lines.getLast? ≠ some "" → recordLines ("\n".intercalate lines) =
        lines.filter fun l => !isBlankText l := by
    have hline : ∀ l ∈ [ok, "", "not a clip", " \t", "oops"],
        '\n' ∉ l.toList ∧ l.toList.getLast? ≠ some '\r' := by
      simp only [List.mem_cons, List.not_mem_nil, or_false]
      rintro l (rfl | rfl | rfl | rfl | rfl)
      · exact ⟨hokFeed, by rw [hokEnd]; decide⟩
      all_goals decide
    intro lines hsub hlast
    exact recordLines_intercalate (fun l hl => (hline l (hsub l hl)).1)
      (fun l hl => (hline l (hsub l hl)).2) hlast
  have hmixed : recordLines mixed = [ok, "not a clip", ok] := by
    rw [hsplit _ (by simp) (by simpa using hokNe)]
    simp only [List.filter_cons, List.filter_nil, hok, hempty, htab, hword]
    rfl
  have hshared : recordLines shared = ["not a clip", ok, "oops"] := by
    rw [hsplit _ (by simp) (by simp)]
    simp only [List.filter_cons, List.filter_nil, hok, hempty, hword, hoops]
    rfl
  have hrun : recordLines run = List.replicate 100 "not a clip" ++ [ok] := by
    have hsub : ∀ l ∈ List.replicate 100 "not a clip" ++ [ok],
        l ∈ [ok, "", "not a clip", " \t", "oops"] := by
      intro l hl
      simp only [List.mem_append, List.mem_replicate, List.mem_singleton] at hl
      rcases hl with ⟨-, rfl⟩ | rfl <;> simp
    rw [hsplit _ hsub (by simpa using hokNe), List.filter_append, List.filter_singleton, hok,
      List.filter_eq_self.2 fun l hl => by rw [List.eq_of_mem_replicate hl, hword]; rfl]
    rfl
  refine ⟨⟨by rw [hmixed]; decide, ?_⟩, ⟨by rw [hshared]; decide, ?_⟩,
    ⟨by rw [hrun]; simp, ?_⟩⟩
  · rw [readLines_eq mixed (by rw [hmixed]; decide), hmixed]
    simp only [List.map_cons, List.map_nil, hwordFails, hokFails]
    rw [if_neg (by decide), if_neg (by decide), readableClips_cons_ok hc,
      readableClips_cons_failed hwordFails, readableClips_cons_ok hc]
    rfl
  · rw [readLines_eq shared (by rw [hshared]; decide), hshared]
    simp only [List.map_cons, List.map_nil, hwordFails, hoopsFails, hokFails]
    rw [if_neg (by decide), if_pos (by decide)]
    rfl
  · rw [readLines_eq run (by rw [hrun]; simp), hrun, List.map_append, List.map_replicate,
      hwordFails, if_pos (List.prefix_append _ _).isInfix]

end ClipSearch.Catalog
