import ClipSearch.Proofs.QueryLaws
import ClipSearch.Query.Form
/-!
# The tokens a search form writes

`Form.build` writes each filled field as one keyed token and joins the tokens by single spaces.
Every such token is read back whole and leaves no quote or parenthesis open (`Standalone`), so
the query holds of a clip exactly when each written token does (`compile_join_accepts`). The
three writers — plain or quoted text, a range, and an OR-group of quoted values — each compile to
the test of their own field.
-/
namespace ClipSearch.Query

open ClipSearch.Catalog ClipSearch.Text

/-! ## Tokens joined by spaces -/

/-- A token that is read back whole and leaves no quote or parenthesis open, so that it keeps
its reading whatever follows it after a space. -/
structure Standalone (w : String) : Prop where
  whole : tokens w = [w]
  closed : openSpan w.toList = false

theorem tokenStarts_of_tokenChars {t : List Char} (h : tokenChars t = [t]) : tokenStarts t = [t] := by
  obtain ⟨c, cs, rfl, hc, hlen, -⟩ := tokenChars_eq_singleton_iff.1 h
  rw [tokenStarts_token cs hc, List.drop_of_length_le hlen, tokenStarts]

/-- Standalone tokens joined by single spaces are read back one by one. -/
theorem tokens_join {ws : List String} (h : ∀ w ∈ ws, Standalone w) :
    tokens (" ".intercalate ws) = ws := by
  induction ws with
  | nil => simp [tokens, tokenChars_nil]
  | cons w ws ih =>
    have hw := h w List.mem_cons_self
    cases ws with
    | nil => simpa using hw.whole
    | cons u us =>
      have hstarts : ∀ r ∈ tokenStarts w.toList, openSpan r = false := by
        rw [tokenStarts_of_tokenChars (tokens_eq_singleton_iff.1 hw.whole)]
        simpa using hw.closed
      rw [String.intercalate_cons_cons, tokens_append_space _ _ hstarts, hw.whole,
        ih (fun v hv => h v (List.mem_cons_of_mem _ hv))]
      rfl

/-- A query of standalone tokens joined by spaces holds of a clip exactly when each token's
predicate does. -/
theorem compile_join_accepts {ws : List String} (h : ∀ w ∈ ws, Standalone w) (s : Settings)
    (c : Clip) :
    (compile (" ".intercalate ws) s).accepts c = ws.all fun w => (tokenPredicate s w).all (·.accepts c) := by
  rw [compile_accepts, tokens_join h]
  induction ws with
  | nil => rfl
  | cons w ws ih =>
    rw [List.filterMap_cons, List.all_cons, ← ih (fun v hv => h v (List.mem_cons_of_mem _ hv))]
    cases tokenPredicate s w <;> simp

/-! ## Keyed tokens -/

theorem bareLength_of_not_mem {cs : List Char} (h : ' ' ∉ cs) : bareLength cs = cs.length := by
  rw [bareLength, List.takeWhile_eq_self_iff.2]
  intro c hc
  simpa using ne_of_mem_of_not_mem hc h

theorem closedSpan_of_ne {cs body : List Char} {k : Nat} {d opening closing : Char}
    (h : cs.drop k = d :: body) (hd : d ≠ opening) : closedSpan cs k opening closing = none := by
  simp [closedSpan, h, hd]

theorem runsOff_of_ne {cs body : List Char} {k : Nat} {d opening closing : Char}
    (h : cs.drop k = d :: body) (hd : d ≠ opening) : runsOff cs k opening closing = false := by
  simp [runsOff, h, hd]

theorem runsOff_of_mem {cs body : List Char} {k : Nat} {d opening closing : Char}
    (h : cs.drop k = d :: body) (hc : closing ∈ body) : runsOff cs k opening closing = false := by
  simp [runsOff, h, hc]

theorem bareAfter_of_drop {cs ds : List Char} {k : Nat} {d : Char} (h : cs.drop k = d :: ds)
    (hs : ' ' ∉ d :: ds) : bareAfter cs k = some (k + (ds.length + 1)) := by
  unfold bareAfter
  rw [h, bareLength_of_not_mem hs]
  rfl

theorem keyed_toList (key value : String) :
    ("?" ++ key ++ ":" ++ value).toList = '?' :: (key.toList ++ ':' :: value.toList) := by
  simp

theorem drop_keyed (key : String) (v : List Char) :
    ('?' :: (key.toList ++ ':' :: v)).drop (key.toList.length + 2) = v := by
  simp [List.drop_append]

section Keyed

variable {key : String} (hk : key ≠ "") (hkc : ∀ c ∈ key.toList, isKeyChar c = true)
include hk hkc

/-- The key prefix `?key:` is read in front of any value. -/
theorem keyPrefix_keyed (rest : List Char) :
    keyPrefix ('?' :: (key.toList ++ ':' :: rest)) = some (key.toList.length + 2) := by
  rw [keyPrefix_question, keyAfter_eq_some.2 ⟨key.toList, rest, rfl, by simpa using hk, hkc, rfl⟩]
  congr 1
  omega

/-- Both places where a keyed token may open a span are closed when the value's first character
opens nothing that stays open. -/
theorem openSpan_keyed {v : List Char}
    (hq : runsOff ('?' :: (key.toList ++ ':' :: v)) (key.toList.length + 2) '"' '"' = false)
    (hp : runsOff ('?' :: (key.toList ++ ':' :: v)) (key.toList.length + 2) '(' ')' = false) :
    openSpan ('?' :: (key.toList ++ ':' :: v)) = false := by
  have h0 : ∀ o c : Char, o ≠ '?' → runsOff ('?' :: (key.toList ++ ':' :: v)) 0 o c = false :=
    fun o c ho => runsOff_of_ne List.drop_zero (Ne.symm ho)
  simp [openSpan, spanStarts, keyPrefix_keyed hk hkc, h0, hq, hp]

/-- A bare keyed token `?key:value`: a value without spaces whose first character opens no quote
and no group. -/
theorem standalone_keyed_bare {value : String} {d : Char} {ds : List Char}
    (hv : value.toList = d :: ds) (hs : ' ' ∉ value.toList) (hq : d ≠ '"') (hp : d ≠ '(') :
    Standalone ("?" ++ key ++ ":" ++ value) := by
  have hdrop := (drop_keyed key value.toList).trans hv
  have hlen : tokenLength ('?' :: (key.toList ++ ':' :: value.toList)) =
      key.toList.length + 2 + (ds.length + 1) := by
    rw [tokenLength_eq]
    simp [shapeLengths, keyPrefix_keyed hk hkc, closedSpan_of_ne hdrop hp,
      closedSpan_of_ne hdrop hq, bareAfter_of_drop hdrop (hv ▸ hs)]
  refine ⟨?_, ?_⟩
  · rw [tokens_eq_singleton_iff, keyed_toList, tokenChars_eq_singleton_iff]
    refine ⟨'?', _, rfl, by decide, ?_, by simp [isBlank]⟩
    rw [hlen]
    simp [hv]
    omega
  · rw [keyed_toList]
    exact openSpan_keyed hk hkc (runsOff_of_ne hdrop hq) (runsOff_of_ne hdrop hp)

/-- A quoted keyed token `?key:"text"`: a text without `"` or a line feed. -/
theorem standalone_keyed_quoted {text : String} (hq : '"' ∉ text.toList)
    (hn : '\n' ∉ text.toList) : Standalone ("?" ++ key ++ ":\"" ++ text ++ "\"") := by
  have ht : ("?" ++ key ++ ":\"" ++ text ++ "\"").toList =
      '?' :: (key.toList ++ ':' :: '"' :: (text.toList ++ ['"'])) := by
    simp
  have hdrop := drop_keyed key ('"' :: (text.toList ++ ['"']))
  have hlen : tokenLength ('?' :: (key.toList ++ ':' :: '"' :: (text.toList ++ ['"']))) =
      key.toList.length + 2 + 1 + (text.toList.length + 1) := by
    rw [tokenLength_eq]
    simp [shapeLengths, keyPrefix_keyed hk hkc, closedSpan_of_ne hdrop (by decide : '"' ≠ '('),
      closedSpan_eq_some [] hdrop hq hn]
  refine ⟨?_, ?_⟩
  · rw [tokens_eq_singleton_iff, ht, tokenChars_eq_singleton_iff]
    refine ⟨'?', _, rfl, by decide, ?_, by simp [isBlank]⟩
    rw [hlen]
    simp
    omega
  · rw [ht]
    exact openSpan_keyed hk hkc (runsOff_of_mem hdrop (by simp))
      (runsOff_of_ne hdrop (by decide))

/-- A keyed group `?key:(inner)`: an inside without `)` or a line feed. -/
theorem standalone_keyed_group {inner : String} (hp : ')' ∉ inner.toList)
    (hn : '\n' ∉ inner.toList) : Standalone ("?" ++ key ++ ":(" ++ inner ++ ")") := by
  have ht : ("?" ++ key ++ ":(" ++ inner ++ ")") = "?" ++ key ++ ":" ++ ("(" ++ inner ++ ")") := by
    simp [← String.toList_inj]
  have hv : ("(" ++ inner ++ ")").toList = '(' :: (inner.toList ++ [')']) := by simp
  have hdrop := (drop_keyed key _).trans hv
  refine ⟨tokens_keyed_group hk hkc hp hn, ?_⟩
  rw [ht, keyed_toList]
  exact openSpan_keyed hk hkc (runsOff_of_ne hdrop (by decide)) (runsOff_of_mem hdrop (by simp))

end Keyed

/-! ## Compiling keyed tokens -/

theorem FieldKey.ofWord?_keyword (k : FieldKey) : FieldKey.ofWord? k.keyword = some k := by
  cases k <;> rfl

theorem FieldKey.keyword_ne_empty (k : FieldKey) : k.keyword ≠ "" := by
  cases k <;> simp [FieldKey.keyword]

theorem FieldKey.isKeyChar_keyword (k : FieldKey) : ∀ c ∈ k.keyword.toList, isKeyChar c = true := by
  cases k <;> simp [FieldKey.keyword, isKeyChar]

theorem FieldKey.colon_not_mem_keyword (k : FieldKey) : ':' ∉ k.keyword.toList := by
  cases k <;> simp [FieldKey.keyword]

theorem stripParens?_of_head {s : String} (h : s.toList.head? ≠ some '(') : stripParens? s = none := by
  unfold stripParens?
  split
  · next rest hrest => simp [hrest] at h
  · rfl

theorem stripQuotes_of_not_mem {s : String} (h : '"' ∉ s.toList) : stripQuotes s = s := by
  unfold stripQuotes
  split
  · next rest hrest => simp [hrest] at h
  · dsimp only
    split
    · next rest hrest =>
      have hmem : '"' ∈ s.toList.reverse := by rw [hrest]; exact List.mem_cons_self
      exact absurd (List.mem_reverse.1 hmem) h
    · simp

theorem stripQuotes_quote (t : String) : stripQuotes ("\"" ++ t ++ "\"") = t := by
  simp [stripQuotes]

/-- A keyed token whose value opens no group compiles to the test of its key on the value,
unquoted. -/
theorem tokenPredicate_keyed (s : Settings) {key value : String} (hk : ':' ∉ key.toList)
    (hv : value.toList.head? ≠ some '(') :
    tokenPredicate s ("?" ++ key ++ ":" ++ value) =
      some (.field (FieldTest.ofKey key (stripQuotes value))) := by
  rw [tokenPredicate_eq, stripNegation_of_head (by simp), bodyPredicate_keyed s hk,
    stripParens?_of_head hv]
  rfl

/-! ## The three writers -/

/-- A filled text field without `"` or a line feed is written as a standalone token testing that
field on the value. -/
theorem textToken_spec (key : FieldKey) {value w : String} (hq : '"' ∉ value.toList)
    (hn : '\n' ∉ value.toList) (h : textToken key value = some w) :
    Standalone w ∧ ∀ s, tokenPredicate s w = some (.field (FieldTest.ofKey key.keyword value)) := by
  have hk := key.keyword_ne_empty
  have hkc := key.isKeyChar_keyword
  unfold textToken at h
  split at h
  · simp at h
  · next hblank =>
    split at h
    · -- quoted: the value holds a space or starts a group
      cases h
      refine ⟨standalone_keyed_quoted hk hkc hq hn, fun s => ?_⟩
      have ht : "?" ++ key.keyword ++ ":\"" ++ value ++ "\"" =
          "?" ++ key.keyword ++ ":" ++ ("\"" ++ value ++ "\"") := by
        simp [← String.toList_inj]
      rw [ht, tokenPredicate_keyed s key.colon_not_mem_keyword (by simp), stripQuotes_quote]
    · -- bare: no space, and the first character is neither `(` nor `"`
      next hplain =>
      cases h
      obtain ⟨d, ds, hv⟩ : ∃ d ds, value.toList = d :: ds := by
        cases hv : value.toList with
        | nil => simp [String.toList_eq_nil_iff.1 hv, trim, dropBlankFront, dropBlankBack] at hblank
        | cons d ds => exact ⟨d, ds, rfl⟩
      have hplain' : ' ' ∉ value.toList ∧ ¬value.toList.head? = some '(' := by simpa using hplain
      have hs := hplain'.1
      have hp : d ≠ '(' := by simpa [hv] using hplain'.2
      have hd : d ≠ '"' := fun e => hq (by rw [hv, e]; exact List.mem_cons_self)
      refine ⟨standalone_keyed_bare hk hkc hv hs hd hp, fun s => ?_⟩
      rw [tokenPredicate_keyed s key.colon_not_mem_keyword (by simp [hv, hp]),
        stripQuotes_of_not_mem hq]

/-- A range with a side set is written as a standalone token testing its field on `lo-hi`, when
neither side holds a space, `"` or `(`. -/
theorem rangeToken_spec (key : FieldKey) {lo hi w : String}
    (hlo : ∀ c ∈ lo.toList, c ≠ ' ' ∧ c ≠ '"' ∧ c ≠ '(')
    (hhi : ∀ c ∈ hi.toList, c ≠ ' ' ∧ c ≠ '"' ∧ c ≠ '(') (h : rangeToken key lo hi = some w) :
    Standalone w ∧
      ∀ s, tokenPredicate s w = some (.field (FieldTest.ofKey key.keyword (lo ++ "-" ++ hi))) := by
  unfold rangeToken at h
  split at h
  · simp at h
  · cases h
    have hval : ∀ c ∈ (lo ++ "-" ++ hi).toList, c ≠ ' ' ∧ c ≠ '"' ∧ c ≠ '(' := by
      intro c hc
      simp only [String.toList_append, List.mem_append] at hc
      rcases hc with (hc | hc) | hc
      · exact hlo c hc
      · have hc' : c = '-' := by simpa using hc
        subst hc'
        decide
      · exact hhi c hc
    obtain ⟨d, ds, hv⟩ : ∃ d ds, (lo ++ "-" ++ hi).toList = d :: ds :=
      List.exists_cons_of_ne_nil (by simp)
    have hd := hval d (by rw [hv]; exact List.mem_cons_self)
    have ht : "?" ++ key.keyword ++ ":" ++ lo ++ "-" ++ hi =
        "?" ++ key.keyword ++ ":" ++ (lo ++ "-" ++ hi) := by
      simp [← String.toList_inj]
    rw [ht]
    refine ⟨standalone_keyed_bare key.keyword_ne_empty key.isKeyChar_keyword hv
      (fun hs => (hval ' ' hs).1 rfl) hd.2.1 hd.2.2, fun s => ?_⟩
    rw [tokenPredicate_keyed s key.colon_not_mem_keyword (by simp [hv, hd.2.2]),
      stripQuotes_of_not_mem (fun hq => (hval '"' hq).2.1 rfl)]

theorem infix_of_infix_cons {p m : List Char} {a : Char} (ha : a ∉ p) (h : p <:+: a :: m) :
    p <:+: m := by
  rcases List.infix_cons_iff.1 h with h | h
  · cases p with
    | nil => exact List.nil_infix
    | cons c p => exact absurd ((List.cons_prefix_cons.1 h).1 ▸ List.mem_cons_self) ha
  · exact h

/-- A pattern that does not hold the framing character lies inside the frame. -/
theorem infix_of_infix_frame {p l : List Char} {b : Char} (hb : b ∉ p)
    (h : p <:+: b :: (l ++ [b])) : p <:+: l := by
  have hend : p.reverse <:+: b :: l.reverse := by
    simpa using List.reverse_infix.2 (infix_of_infix_cons hb h)
  exact List.reverse_infix.1 (infix_of_infix_cons (by simpa using hb) hend)

theorem trim_quote (v : String) : trim ("\"" ++ v ++ "\"") = "\"" ++ v ++ "\"" := by
  rw [← String.toList_inj, trim_toList]
  simp [dropBlankFront, dropBlankBack, isBlank]

/-- A value in quotes, without `)`, a line feed or ` OR `, is a term an OR-group gives back. -/
theorem groupTerm_quote {v : String} (hp : ')' ∉ v.toList) (hn : '\n' ∉ v.toList)
    (ho : ¬" OR ".toList <:+: v.toList) : GroupTerm ("\"" ++ v ++ "\"") where
  ne_empty := by simp [← String.toList_inj]
  no_paren := by simpa using hp
  no_newline := by simpa using hn
  no_or := fun h => ho (infix_of_infix_frame (by decide : '"' ∉ " OR ".toList) (by simpa using h))
  trimmed := trim_quote v

theorem not_orSuffix_quote (v : String) : ¬" OR".toList <:+ ("\"" ++ v ++ "\"").toList := by
  rintro ⟨pre, hpre⟩
  have hlast := congrArg List.getLast? hpre
  rw [show ("\"" ++ v ++ "\"").toList = ('"' :: v.toList) ++ ['"'] by simp,
    List.getLast?_concat] at hlast
  simp at hlast

theorem groupTermPredicate_quote (key : String) (s : Settings) (v : String) :
    groupTermPredicate (some key) s ("\"" ++ v ++ "\"") = .field (FieldTest.ofKey key v) := by
  rw [groupTermPredicate, stripNegation_of_head (by simp)]
  simp only [stripQuotes_quote]
  rfl

/-- Chosen values without `)`, a line feed or ` OR ` are written as a standalone keyed group,
which holds of a clip exactly when the key's test holds of one of the values. -/
theorem selectionToken_spec (key : FieldKey) {values : List String} {w : String}
    (hv : ∀ v ∈ values, ')' ∉ v.toList ∧ '\n' ∉ v.toList ∧ ¬" OR ".toList <:+: v.toList)
    (h : selectionToken key values = some w) :
    Standalone w ∧ ∀ s c, (tokenPredicate s w).all (·.accepts c) =
      values.any fun v => (FieldTest.ofKey key.keyword v).accepts c := by
  unfold selectionToken at h
  split at h
  · simp at h
  · cases h
    set terms := values.map fun v => "\"" ++ v ++ "\"" with hterms
    have hts : ∀ t ∈ terms, GroupTerm t := by
      simp only [hterms, List.mem_map]
      rintro _ ⟨v, hmem, rfl⟩
      exact groupTerm_quote (hv v hmem).1 (hv v hmem).2.1 (hv v hmem).2.2
    have hsuf : ∀ t ∈ terms, ¬" OR".toList <:+ t.toList := by
      simp only [hterms, List.mem_map]
      rintro _ ⟨v, -, rfl⟩
      exact not_orSuffix_quote v
    have hp : ')' ∉ (" OR ".intercalate terms).toList :=
      not_mem_intercalate (by decide) fun t ht => (hts t ht).no_paren
    have hn : '\n' ∉ (" OR ".intercalate terms).toList :=
      not_mem_intercalate (by decide) fun t ht => (hts t ht).no_newline
    refine ⟨standalone_keyed_group key.keyword_ne_empty key.isKeyChar_keyword hp hn,
      fun s c => ?_⟩
    rw [tokenPredicate_keyed_group s _ key.colon_not_mem_keyword, Option.all_some,
      accepts_groupPredicate_intercalate hts hsuf, hterms, List.any_map]
    simp only [Function.comp_def, groupTermPredicate_quote, Predicate.accepts]

end ClipSearch.Query
