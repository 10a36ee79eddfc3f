import ClipSearch.Proofs.CatalogReadBack
/-!
# Catalog files read back

A catalog written one clip a line, the lines joined by line feeds, reads back as its clips in
order, each to the second (`readLines_compact`); a file that holds the array of the clips,
compact or pretty and within the size limit, loads as the same list (`loadCatalog_written`).

Lines are written by `compact`. A written clip is one line, for a line feed inside a string is
escaped (`lineFeed_not_mem_compact_clip`), so splitting the joined text at line feeds gives the
lines back (`linesOf_intercalate`). A run of lines that all read stops nothing: the
failure rate of no failures is zero over the count, or not a number, and neither is above one
half (`not_half_lt_failureRate_zero`).
-/
namespace ClipSearch.Catalog

open ClipSearch.Json ClipSearch.Json.Scan ClipSearch.Text ClipSearch.Files ClipSearch.Decimal

/-! ## Splitting at line feeds -/

section Lines

open String

/-- A separator of one character that takes one byte, as the line feed and the colon are. -/
structure OneByte (sep : String) (c : Char) : Prop where
  get_zero : Pos.Raw.get sep 0 = c
  next_zero : Pos.Raw.next sep 0 = ⟨1⟩
  utf8Size_eq : c.utf8Size = 1
  rawEndPos_le : sep.rawEndPos ≤ ⟨1⟩
  ne_empty : sep ≠ ""

theorem oneByte_lineFeed : OneByte "\n" '\n' := ⟨rfl, rfl, rfl, by decide, by decide⟩

section OneByte

variable {sep : String} {c : Char}

/-- Splitting at a one-byte separator from inside a text: `l` is split off already, `m` is the
piece read so far, and `r` is what is left. -/
theorem splitOnAux_oneByte (hsep : OneByte sep c) (l m r : List Char) (acc : List String) :
    splitOnAux (ofList (l ++ m ++ r)) sep ⟨utf8Len l⟩ ⟨utf8Len l + utf8Len m⟩ 0 acc =
      acc.reverse ++ (List.splitOnPPrepend (· == c) r m.reverse).map ofList := by
  induction r generalizing l m acc with
  | nil =>
    have hext := extract_of_valid l m []
    rw [List.append_nil] at hext ⊢
    unfold String.splitOnAux
    simp only [atEnd_iff, rawEndPos_ofList, utf8Len_append]
    rw [if_pos Pos.Raw.le_refl, hext]
    simp
  | cons d r ih =>
    unfold String.splitOnAux
    have hend : ¬ (ofList (l ++ m ++ d :: r)).rawEndPos ≤ ⟨utf8Len l + utf8Len m⟩ := by
      simp only [rawEndPos_ofList, utf8Len_append, utf8Len_cons, Pos.Raw.le_iff]
      have := d.utf8Size_pos
      omega
    simp only [atEnd_iff]
    rw [if_neg hend]
    have hget : Pos.Raw.get (ofList (l ++ m ++ d :: r)) ⟨utf8Len l + utf8Len m⟩ = d := by
      simpa using get_of_valid (l ++ m) (d :: r)
    have hnext : Pos.Raw.next (ofList (l ++ m ++ d :: r)) ⟨utf8Len l + utf8Len m⟩ =
        ⟨utf8Len l + utf8Len m + d.utf8Size⟩ := by
      simpa using next_of_valid (l ++ m) d r
    simp only [hget, hnext, hsep.get_zero, hsep.next_zero, Pos.Raw.unoffsetBy_zero]
    by_cases hd : d = c
    · -- the separator closes the piece read so far and starts an empty one
      subst hd
      have hback : (⟨utf8Len l + utf8Len m + 1⟩ : Pos.Raw).unoffsetBy ⟨1⟩ =
          ⟨utf8Len l + utf8Len m⟩ := by
        ext
        simp [Pos.Raw.byteIdx_unoffsetBy]
      have hrest := ih (l ++ m ++ [d]) [] (ofList m :: acc)
      rw [show l ++ m ++ [d] ++ [] ++ r = l ++ m ++ d :: r by simp, utf8Len_nil, Nat.add_zero,
        show utf8Len (l ++ m ++ [d]) = utf8Len l + utf8Len m + 1 by simp [hsep.utf8Size_eq]; omega] at hrest
      rw [hsep.utf8Size_eq, if_pos (beq_self_eq_true d), if_pos hsep.rawEndPos_le, hback,
        extract_of_valid l m, hrest, List.splitOnPPrepend_cons_pos (by simp)]
      simp
    · have hne : (d == c) = false := beq_false_of_ne hd
      have hrest := ih l (m ++ [d]) acc
      rw [show l ++ (m ++ [d]) ++ r = l ++ m ++ d :: r by simp,
        show utf8Len l + utf8Len (m ++ [d]) = utf8Len l + utf8Len m + d.utf8Size by simp; omega,
        List.reverse_append, List.reverse_singleton, List.singleton_append] at hrest
      rw [if_neg (by rw [hne]; decide), hrest,
        @List.splitOnPPrepend_cons_neg _ (· == c) d r m.reverse hne]

/-- Splitting a text at a one-byte separator splits its characters there. -/
theorem splitOn_oneByte (hsep : OneByte sep c) (s : String) :
    s.splitOn sep = (s.toList.splitOn c).map ofList := by
  have h := splitOnAux_oneByte hsep [] [] s.toList []
  rw [List.nil_append, List.nil_append, ofList_toList, utf8Len_nil] at h
  rw [String.splitOn, if_neg (by simpa using hsep.ne_empty)]
  exact h.trans (by simp [List.splitOn_eq_splitOnP])

end OneByte

/-- Splitting a text at line feeds splits its characters there. -/
theorem splitOn_lineFeed (s : String) : s.splitOn "\n" = (s.toList.splitOn '\n').map ofList :=
  splitOn_oneByte oneByte_lineFeed s

theorem endsWith_return_eq_false {s : String} (h : s.toList.getLast? ≠ some '\r') :
    s.endsWith "\r" = false := by
  rw [String.endsWith, String.Slice.endsWith_string_eq_false_iff]
  simp only [String.copy_toSlice]
  rintro ⟨t, ht⟩
  apply h
  rw [← ht]
  simp

/-- Lines joined by line feeds split back into those lines, when none holds a line feed or ends
in a carriage return and the last is not empty. -/
theorem linesOf_intercalate {lines : List String} (hfeed : ∀ l ∈ lines, '\n' ∉ l.toList)
    (hret : ∀ l ∈ lines, l.toList.getLast? ≠ some '\r') (hlast : lines.getLast? ≠ some "") :
    linesOf ("\n".intercalate lines) = lines := by
  rcases List.eq_nil_or_concat lines with rfl | ⟨init, last, rfl⟩
  · simp [linesOf, splitOn_lineFeed]
  · rw [List.concat_eq_append] at hfeed hret hlast ⊢
    have hpieces : ("\n".intercalate (init ++ [last])).splitOn "\n" = init ++ [last] := by
      have hsep : ∀ t ∈ (init ++ [last]).map String.toList, '\n' ∉ t := fun t ht => by
        obtain ⟨l, hl, rfl⟩ := List.mem_map.1 ht
        exact hfeed l hl
      rw [splitOn_lineFeed, toList_intercalate, show "\n".toList = ['\n'] from rfl,
        List.splitOn_intercalate '\n' hsep (by simp)]
      simp [Function.comp_def]
    have hkeep : ∀ p ∈ init, p.endsWith "\r" = false := fun p hp =>
      endsWith_return_eq_false (hret p (List.mem_append_left _ hp))
    rw [List.getLast?_concat] at hlast
    unfold linesOf
    simp only [hpieces, List.getLast?_concat, List.dropLast_concat]
    split
    · next heq => exact absurd heq hlast
    · next heq => exact absurd heq (Option.some_ne_none last)
    · next _ last' _ heq =>
      cases Option.some.inj heq
      rw [List.map_congr_left fun p hp => by rw [hkeep p hp, if_neg Bool.false_ne_true],
        List.map_id']

end Lines

/-! ## A written clip is one line -/

section OneLine

/-- `escapeChar` writes no character as a line feed. -/
theorem lineFeed_not_mem_escapeChar (ch : Char) : '\n' ∉ (escapeChar ch).toList := by
  unfold escapeChar
  repeat' split
  all_goals simp_all
  · -- a control character without a letter is written with four hexadecimal digits
    intro hmem
    have hhex := (hexQuad_control ch.toNat ‹ch.toNat < 32›).2.1
    rw [List.all_eq_true] at hhex
    exact absurd (hhex '\n' (List.mem_append_right _ hmem)) (by decide)
  · exact fun h => ‹¬ch = '\n'› h.symm

theorem lineFeed_not_mem_quote (s : String) : '\n' ∉ (quote s).toList := by
  rw [quote_toList, List.mem_cons, List.mem_append, escaped, List.mem_flatMap]
  rintro (h | ⟨ch, -, h⟩ | h)
  · exact absurd h (by decide)
  · exact lineFeed_not_mem_escapeChar ch h
  · exact absurd h (by decide)

theorem lineFeed_not_mem_toDigits (n : Nat) : '\n' ∉ Nat.toDigits 10 n := fun h =>
  absurd (isDigit_of_mem_toDigits h) (by decide)

theorem lineFeed_not_mem_intercalate {ts : List (List Char)} (h : ∀ t ∈ ts, '\n' ∉ t) :
    '\n' ∉ [','].intercalate ts := by
  cases ts with
  | nil => simp
  | cons t ts =>
    rw [intercalate_comma, List.mem_append, List.mem_flatten]
    rintro (hmem | ⟨u, hu, hmem⟩)
    · exact h t List.mem_cons_self hmem
    · obtain ⟨v, hv, rfl⟩ := List.mem_map.1 hu
      rcases List.mem_cons.1 hmem with heq | hmem
      · exact absurd heq (by decide)
      · exact h v (List.mem_cons_of_mem t hv) hmem

theorem lineFeed_not_mem_compact_array {vs : List Value} (h : ∀ v ∈ vs, '\n' ∉ (compact v).toList) :
    '\n' ∉ (compact (.array vs)).toList := by
  rw [compact_array_toList, List.mem_cons, List.mem_append]
  rintro (heq | hmem | hmem)
  · exact absurd heq (by decide)
  · refine lineFeed_not_mem_intercalate (fun t ht => ?_) hmem
    obtain ⟨v, hv, rfl⟩ := List.mem_map.1 ht
    exact h v hv
  · exact absurd hmem (by decide)

theorem lineFeed_not_mem_compact_object {es : List (String × Value)}
    (h : ∀ e ∈ es, '\n' ∉ (compact e.2).toList) : '\n' ∉ (compact (.object es)).toList := by
  rw [compact_object_toList, List.mem_cons, List.mem_append]
  rintro (heq | hmem | hmem)
  · exact absurd heq (by decide)
  · refine lineFeed_not_mem_intercalate (fun t ht => ?_) hmem
    obtain ⟨e, he, rfl⟩ := List.mem_map.1 ht
    rw [List.mem_append, List.mem_cons]
    rintro (hkey | heq | hval)
    · exact lineFeed_not_mem_quote e.1 hkey
    · exact absurd heq (by decide)
    · exact h e he hval
  · exact absurd hmem (by decide)

theorem lineFeed_not_mem_compact_string (s : String) : '\n' ∉ (compact (.string s)).toList := by
  rw [compact_string_toList]
  exact lineFeed_not_mem_quote s

theorem lineFeed_not_mem_compact_intValue (n : Int) : '\n' ∉ (compact (intValue n)).toList := by
  by_cases hpos : 0 ≤ n
  · rw [intValue, if_pos hpos, compact_nat_toList]
    exact lineFeed_not_mem_toDigits _
  · obtain ⟨k, hk, rfl⟩ : ∃ k : Nat, 0 < k ∧ n = -(k : Int) := ⟨n.natAbs, by omega, by omega⟩
    rw [intValue, if_neg hpos, compact_neg_toList hk, List.mem_cons]
    rintro (heq | hmem)
    · exact absurd heq (by decide)
    · exact lineFeed_not_mem_toDigits k hmem

theorem lineFeed_not_mem_compact_null : '\n' ∉ (compact .null).toList := by
  rw [compact]
  decide

theorem lineFeed_not_mem_compact_optText (o : Option String) :
    '\n' ∉ (compact (optTextValue o)).toList := by
  cases o with
  | none => exact lineFeed_not_mem_compact_null
  | some s => exact lineFeed_not_mem_compact_string s

theorem lineFeed_not_mem_compact_moment (o : Option Calendar.Moment) :
    '\n' ∉ (compact (momentValue o)).toList := by
  cases o with
  | none => exact lineFeed_not_mem_compact_null
  | some m => exact lineFeed_not_mem_compact_string _

/-- A clip is written on one line: a line feed in any of its texts is escaped. -/
theorem lineFeed_not_mem_compact_clip (c : Clip) : '\n' ∉ (compact c.toValue).toList := by
  refine lineFeed_not_mem_compact_object fun e he => ?_
  simp only [List.mem_cons, List.not_mem_nil, or_false] at he
  rcases he with rfl | rfl | rfl | rfl | rfl | rfl | rfl | rfl | rfl | rfl | rfl | rfl | rfl | rfl
  · exact lineFeed_not_mem_compact_intValue c.id
  · exact lineFeed_not_mem_compact_optText c.filePath
  · exact lineFeed_not_mem_compact_optText c.clipName
  · exact lineFeed_not_mem_compact_optText c.songTitle
  · exact lineFeed_not_mem_compact_optText c.concertName
  · exact lineFeed_not_mem_compact_optText c.lyrics
  · exact lineFeed_not_mem_compact_optText c.remarks
  · rw [compact_nat_toList]
    exact lineFeed_not_mem_toDigits c.durationMs
  · exact lineFeed_not_mem_compact_moment c.concertDate
  · exact lineFeed_not_mem_compact_moment c.createdAt
  · exact lineFeed_not_mem_compact_moment c.updatedAt
  · exact lineFeed_not_mem_compact_string c.liveType.name
  · refine lineFeed_not_mem_compact_array fun v hv => ?_
    obtain ⟨s, -, rfl⟩ := List.mem_map.1 hv
    exact lineFeed_not_mem_compact_string s
  · refine lineFeed_not_mem_compact_array fun v hv => ?_
    obtain ⟨p, -, rfl⟩ := List.mem_map.1 hv
    refine lineFeed_not_mem_compact_object fun e he => ?_
    simp only [List.mem_cons, List.not_mem_nil, or_false] at he
    rcases he with rfl | rfl <;> exact lineFeed_not_mem_compact_string _

/-- A written clip ends with its closing brace. -/
theorem getLast?_compact_clip (c : Clip) : (compact c.toValue).toList.getLast? = some '}' := by
  have htext : (compact c.toValue).toList = _ := text_clip .compact c
  rw [htext, ← List.cons_append, List.getLast?_concat]

end OneLine

/-! ## Reading line by line -/

section Tally

/-- The first character of a text, when it is not blank, is its first character that is not
blank. -/
theorem firstNonBlank_of_head {s : String} {c : Char} {cs : List Char} (h : s.toList = c :: cs)
    (hc : isBlank c = false) : firstNonBlank s = some c := by
  have hs : String.singleton c ++ String.ofList cs = s := by
    rw [← String.toList_inj]
    simp [h]
  have hfind : s.find? (fun c => !isBlank c) = some s.startPos := by
    rw [String.find?_bool_eq_some_iff_splits]
    refine ⟨"", c, String.ofList cs, ?_, by simp [hc], by simp⟩
    rw [hs]
    exact String.splits_startPos s
  have hpos : s.find (fun c => !isBlank c) = s.startPos := by
    unfold String.find String.Slice.find
    unfold String.find? at hfind
    obtain ⟨q, hq, hq'⟩ := Option.map_eq_some_iff.1 hfind
    rw [hq, Option.getD_some, hq']
  have hne : s.startPos ≠ s.endPos := String.startPos_ne_endPos (by rintro rfl; simp at h)
  unfold firstNonBlank
  rw [hpos, String.Pos.get?_eq_some_get hne, String.get_startPos]
  simp [h]

theorem isBlankText_compact_clip (c : Clip) : isBlankText (compact c.toValue) = false := by
  have htext : (compact c.toValue).toList = _ := text_clip .compact c
  rw [isBlankText, firstNonBlank_of_head htext (by decide)]
  rfl

/-- A line that is not blank and reads as a clip adds the clip and ends the run of failures. -/
theorem LineTally.add_clip (t : LineTally) {line : String} {c : Clip}
    (hblank : isBlankText line = false) (hread : readClip line = .ok c) :
    t.add line = .ok { t with clipsBack := c :: t.clipsBack, total := t.total + 1, inRow := 0 } := by
  rw [LineTally.add, hblank, hread]
  rfl

/-- Lines of storable clips are tallied one by one: every clip kept, to the second, and none
skipped. -/
theorem foldlM_add_compact {cs : List Clip} (hcs : ∀ c ∈ cs, c.Storable) (t : LineTally) :
    ∃ t', (cs.map fun c => compact c.toValue).foldlM LineTally.add t = .ok t' ∧
      t'.clipsBack = (cs.map Clip.wholeSeconds).reverse ++ t.clipsBack ∧
      t'.total = t.total + cs.length ∧ t'.skipped = t.skipped := by
  induction cs generalizing t with
  | nil => exact ⟨t, rfl, by simp, by simp, rfl⟩
  | cons c cs ih =>
    obtain ⟨t', hfold, hback, htotal, hskip⟩ := ih (fun c' hc' => hcs c' (List.mem_cons_of_mem c hc'))
      { t with clipsBack := c.wholeSeconds :: t.clipsBack, total := t.total + 1, inRow := 0 }
    refine ⟨t', ?_, ?_, ?_, hskip⟩
    · have hread : readClip (compact c.toValue) = .ok c.wholeSeconds :=
        readClip_written .compact (hcs c List.mem_cons_self)
      rw [List.map_cons, List.foldlM_cons, LineTally.add_clip t (isBlankText_compact_clip c) hread]
      exact hfold
    · simp [hback]
    · simp only [htotal, List.length_cons]
      omega

/-- With no failures the failure rate is never above one half: zero over any double is a zero or
not a number. -/
theorem not_half_lt_failureRate_zero (total : Nat) : ¬ (0.5 < failureRate 0 total) := by
  have hzero : (Decimal.Binary.ofDecimal false 0 0).toModel.unpack =
      .zero Float.Model.UnpackedFloat.Sign.positive := rfl
  show ¬ (Float.lt 0.5 (failureRate 0 total) = true)
  unfold Float.lt failureRate
  rw [decide_eq_true_iff]
  change ¬ ((0.5 : Float).toModel.unpack.lt (Float.Model.pack (Float.Model.UnpackedFloat.div
    Float.Model.Format.binary64 (Decimal.Binary.ofDecimal false 0 0).toModel.unpack
    (Decimal.Binary.ofDecimal false total 0).toModel.unpack)).unpack = true)
  rw [hzero]
  cases (Decimal.Binary.ofDecimal false total 0).toModel.unpack with
  | zero s => cases s <;> decide
  | finite s m e hm =>
    simp only [Float.Model.UnpackedFloat.div]
    cases s <;> decide
  | infinity s => cases s <;> decide
  | notANumber => decide

/-- Storable clips written one a line, the lines joined by line feeds, read back as the clips in
order, each to the second. -/
theorem readLines_compact {cs : List Clip} (hcs : ∀ c ∈ cs, c.Storable) :
    readLines ("\n".intercalate (cs.map fun c => compact c.toValue)) =
      .ok (cs.map Clip.wholeSeconds) := by
  have hlines : linesOf ("\n".intercalate (cs.map fun c => compact c.toValue)) =
      cs.map fun c => compact c.toValue := by
    refine linesOf_intercalate (fun l hl => ?_) (fun l hl => ?_) ?_
    · obtain ⟨c, -, rfl⟩ := List.mem_map.1 hl
      exact lineFeed_not_mem_compact_clip c
    · obtain ⟨c, -, rfl⟩ := List.mem_map.1 hl
      rw [getLast?_compact_clip]
      decide
    · intro hlast
      obtain ⟨c, -, hc⟩ := List.mem_map.1 (List.mem_of_getLast? hlast)
      have : 14 ≤ (compact c.toValue).toList.length := length_text_clip .compact c
      rw [hc] at this
      simp at this
  obtain ⟨t, hfold, hback, -, hskip⟩ := foldlM_add_compact hcs {}
  unfold readLines
  rw [hlines, hfold]
  dsimp only [bind, Except.bind]
  simp only [hskip, hback, List.append_nil, List.reverse_reverse]
  split
  · simp only [not_half_lt_failureRate_zero, if_false]
    rfl
  · rfl

end Tally

/-! ## Loading a catalog file -/

theorem FileBody.text?_ofBytes (s : String) : (FileBody.ofBytes s.toUTF8).text? = some s := by
  simp only [FileBody.text?, FileBody.data, FileBody.ofBytes, le_refl, if_true,
    ByteArray.extract_zero_size]
  simp only [String.fromUTF8?, String.toUTF8_eq_toByteArray, dif_pos s.isValidUTF8]
  rfl

/-- A catalog file that holds the array of storable clips, written in either layout within the
size limit, loads as the clips in order, each to the second. -/
theorem loadCatalog_written (path : String) (lay : Layout) {cs : List Clip}
    (hcs : ∀ c ∈ cs, c.Storable)
    (hsize : (lay.write (.array (cs.map Clip.toValue))).utf8ByteSize ≤ maxFileSize) :
    loadCatalog path (.file (.ofBytes (lay.write (.array (cs.map Clip.toValue))).toUTF8)) =
      .ok (cs.map Clip.wholeSeconds) := by
  have hfirst : firstNonBlank (lay.write (.array (cs.map Clip.toValue))) = some '[' :=
    firstNonBlank_of_head (Layout.text_array lay _) (by decide)
  have hfits : ¬ (FileBody.ofBytes (lay.write (.array (cs.map Clip.toValue))).toUTF8).size >
      maxFileSize := by
    simpa [FileBody.ofBytes] using hsize
  unfold loadCatalog
  dsimp only
  rw [if_neg hfits, FileBody.text?_ofBytes]
  unfold readCatalogText
  dsimp only
  rw [hfirst, if_pos (show (some '[' == some '[') = true from rfl), readClips_written lay hcs]

/-! ## Round trip -/

/-- Storable clips read back as written, each to the second: one clip from its object, compact
or pretty; a catalog written one clip a line; and a catalog file holding the array of them,
compact or pretty, within the size limit. -/
theorem written_catalog_reads_back :
    (∀ (lay : Layout) (c : Clip), c.Storable → readClip (lay.write c.toValue) = .ok c.wholeSeconds) ∧
    ∀ cs : List Clip, (∀ c ∈ cs, c.Storable) →
      readLines ("\n".intercalate (cs.map fun c => compact c.toValue)) =
        .ok (cs.map Clip.wholeSeconds) ∧
      ∀ (lay : Layout) (path : String),
        (lay.write (.array (cs.map Clip.toValue))).utf8ByteSize ≤ maxFileSize →
        loadCatalog path (.file (.ofBytes (lay.write (.array (cs.map Clip.toValue))).toUTF8)) =
          .ok (cs.map Clip.wholeSeconds) :=
  ⟨fun lay _ hc => readClip_written lay hc, fun _ hcs =>
    ⟨readLines_compact hcs, fun lay path hsize => loadCatalog_written path lay hcs hsize⟩⟩

/-- A clip with a negative id, a line feed in its song title, a date half a second past the hour,
two brands and a performer reads back with the half second dropped: alone, compact and pretty.
With a second clip of another live type and creation date after it, both read back in order, one
a line and from a catalog file written pretty. -/
theorem written_catalog_reads_back_sample :
    let c : Clip :=
      { id := -7, songTitle := some "Shine\nOn", durationMs := 150000,
        concertDate := some ⟨⟨2024, 5, 1⟩, 3600, 500000000⟩, brands := ⟨3⟩,
        performers := [⟨"Haruka", "haruka"⟩] }
    let d : Clip :=
      { id := 8, filePath := some "/videos/b.mp4", liveType := .mr,
        createdAt := some ⟨⟨2023, 1, 2⟩, 0, 0⟩ }
    c.Storable ∧ d.Storable ∧
      readClip (compact c.toValue) = .ok { c with concertDate := some ⟨⟨2024, 5, 1⟩, 3600, 0⟩ } ∧
      readClip (pretty c.toValue) = .ok c.wholeSeconds ∧
      readLines ("\n".intercalate [compact c.toValue, compact d.toValue]) =
        .ok [c.wholeSeconds, d] ∧
      loadCatalog "catalog.json" (.file (.ofBytes (pretty (.array [c.toValue, d.toValue])).toUTF8)) =
        .ok [c.wholeSeconds, d] := by
  intro c d
  have hc : c.Storable :=
    { id_ge := by decide
      id_lt := by decide
      duration_le := by decide
      concertDate := fun m hm => by
        cases hm
        exact ⟨rfl, by decide, by decide, by decide⟩
      createdAt := fun m hm => by cases hm
      updatedAt := fun m hm => by cases hm
      brands := by decide }
  have hd : d.Storable :=
    { id_ge := by decide
      id_lt := by decide
      duration_le := by decide
      concertDate := fun m hm => by cases hm
      createdAt := fun m hm => by
        cases hm
        exact ⟨rfl, by decide, by decide, by decide⟩
      updatedAt := fun m hm => by cases hm
      brands := by decide }
  obtain ⟨hone, hmany⟩ := written_catalog_reads_back
  have hlist := hmany [c, d] (by simp [hc, hd])
  exact ⟨hc, hd, hone .compact c hc, hone (.pretty 0) c hc, hlist.1,
    hlist.2 (.pretty 0) "catalog.json" (by decide +kernel)⟩

end ClipSearch.Catalog
