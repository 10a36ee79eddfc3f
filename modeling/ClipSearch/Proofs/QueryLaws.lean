import ClipSearch.Proofs.QueryScan
/-!
# Negation and OR-groups

Two laws tie the forms of the query language together.

* A `-` in front of a whole token negates it: the text stays one token, and the query holds of a
  clip exactly when the token alone does not (`compile_dash_negates`).
* An OR-group holds of a clip exactly when one of its terms, written as a query of its own,
  does; in a keyed group each term is read as the keyed token `?key:term`, with the term's own
  `-` in front (`compile_or_group`).
-/
namespace ClipSearch.Query

open ClipSearch.Catalog ClipSearch.Text

/-! ## Compiling one token -/

/-- The predicate of a token's body, once its leading `-` is taken off; none for a keyed body
without a `:`. -/
def bodyPredicate (settings : Settings) (body : String) : Option Predicate :=
  match body.toList with
  | '?' :: keyed =>
    match splitColon (String.ofList keyed) with
    | none => none
    | some (key, value) =>
      match stripParens? value with
      | some inner => some (groupPredicate (some key) inner settings)
      | none => some (.field (FieldTest.ofKey key (stripQuotes value)))
  | _ =>
    match stripParens? body with
    | some inner => some (groupPredicate none inner settings)
    | none => some (.word (FreeWord.make (stripQuotes body) settings))

/-- A token is compiled from its body, and negated when it starts with `-`. -/
theorem tokenPredicate_eq (s : Settings) (token : String) :
    tokenPredicate s token = (bodyPredicate s (stripNegation token).2).map
      (fun q => if (stripNegation token).1 then .not q else q) := rfl

theorem stripNegation_dash (t : String) : stripNegation ("-" ++ t) = (true, t) := by
  simp [stripNegation]

theorem stripNegation_of_head {t : String} (h : t.toList.head? ≠ some '-') :
    stripNegation t = (false, t) := by
  unfold stripNegation
  split
  · next rest hrest => simp [hrest] at h
  · rfl

theorem splitColon_eq_none_iff {s : String} : splitColon s = none ↔ ':' ∉ s.toList := by
  simp [splitColon, splitFirst]

/-- Only a keyed body without a `:` compiles to nothing. -/
theorem bodyPredicate_eq_none_iff {s : Settings} {t : String} :
    bodyPredicate s t = none ↔ t.toList.head? = some '?' ∧ ':' ∉ t.toList := by
  unfold bodyPredicate
  split
  · next keyed hkeyed =>
    simp only [hkeyed, List.head?_cons, true_and]
    cases hsc : splitColon (String.ofList keyed) with
    | none => simpa using splitColon_eq_none_iff.1 hsc
    | some kv =>
      obtain ⟨key, value⟩ := kv
      have hmem : ':' ∈ keyed := by
        by_contra hn
        rw [splitColon_eq_none_iff.2 (by simpa using hn)] at hsc
        simp at hsc
      dsimp only
      split <;> simp [hmem]
  · next hne =>
    constructor
    · intro h
      split at h <;> simp at h
    · rintro ⟨hq, -⟩
      obtain ⟨keyed, hkeyed⟩ : ∃ keyed, t.toList = '?' :: keyed := by
        cases ht : t.toList with
        | nil => simp [ht] at hq
        | cons c cs =>
          simp only [ht, List.head?_cons, Option.some.injEq] at hq
          exact ⟨cs, by rw [hq]⟩
      exact absurd hkeyed (hne keyed)

/-- A query of one token holds of a clip as the token's predicate does; a token compiled to
nothing holds of every clip. -/
theorem compile_accepts_of_tokens_eq {q : String} (h : tokens q = [q]) (s : Settings) (c : Clip) :
    (compile q s).accepts c = (tokenPredicate s q).all (·.accepts c) := by
  rw [compile_accepts, h]
  cases hp : tokenPredicate s q <;> simp [hp]

/-! ## Negation -/

/-- A `-` in front of a whole token that does not start with `-` keeps it one token. -/
theorem tokenChars_dash_cons {t : List Char} (hw : tokenChars t = [t])
    (hd : t.head? ≠ some '-') : tokenChars ('-' :: t) = ['-' :: t] := by
  obtain ⟨c, cs, rfl, hc, hlen, hblank⟩ := tokenChars_eq_singleton_iff.1 hw
  have hcd : c ≠ '-' := by simpa using hd
  refine tokenChars_eq_singleton_iff.2 ⟨'-', c :: cs, rfl, by decide, ?_, ?_⟩
  · rw [tokenLength_dash_cons hc hcd]
    simp only [List.length_cons] at hlen ⊢
    omega
  · simp [isBlank]

/-- Negation law: a whole token `t` that does not start with `-`, and is not a keyed token
without a `:`, gives with a `-` in front one whole token again, and the query `-t` holds of a
clip exactly when `t` does not, for any settings. -/
theorem compile_dash_negates (t : String) (hw : tokens t = [t]) (hd : t.toList.head? ≠ some '-')
    (hk : ¬(t.toList.head? = some '?' ∧ ':' ∉ t.toList)) :
    tokens ("-" ++ t) = ["-" ++ t] ∧
      ∀ (s : Settings) (c : Clip), (compile ("-" ++ t) s).accepts c = !(compile t s).accepts c := by
  have hw' : tokens ("-" ++ t) = ["-" ++ t] := by
    rw [tokens_eq_singleton_iff] at hw ⊢
    simp [tokenChars_dash_cons hw hd]
  refine ⟨hw', fun s c => ?_⟩
  obtain ⟨p, hp⟩ : ∃ p, bodyPredicate s t = some p :=
    Option.ne_none_iff_exists'.1 (fun h => hk (bodyPredicate_eq_none_iff.1 h))
  rw [compile_accepts_of_tokens_eq hw', compile_accepts_of_tokens_eq hw, tokenPredicate_eq,
    tokenPredicate_eq, stripNegation_dash, stripNegation_of_head hd, hp]
  simp

/-- A negated quoted word. -/
theorem compile_dash_negates_quoted :
    tokens "\"a b\"" = ["\"a b\""] ∧ tokens ("-" ++ "\"a b\"") = ["-" ++ "\"a b\""] := by
  have hw : tokens "\"a b\"" = ["\"a b\""] := by decide +kernel
  exact ⟨hw, (compile_dash_negates "\"a b\"" hw (by decide) (by decide)).1⟩

/-! ## Splitting a group into its terms -/

section Split

variable {sep : List Char} {nonempty : 0 < sep.length}

theorem splitOnSep_go_nil (acc : List Char) :
    splitOnSep.go sep nonempty [] acc = [acc.reverse] := by
  rw [splitOnSep.go]

theorem splitOnSep_go_append (t tail acc : List Char)
    (h : ∀ i < t.length, sep.isPrefixOf ((t ++ tail).drop i) = false) :
    splitOnSep.go sep nonempty (t ++ tail) acc =
      splitOnSep.go sep nonempty tail (t.reverse ++ acc) := by
  induction t generalizing acc with
  | nil => rfl
  | cons c t ih =>
    have h0 : sep.isPrefixOf (c :: (t ++ tail)) = false := h 0 (by simp)
    rw [List.cons_append, splitOnSep.go, if_neg (by simp [h0]),
      ih (c :: acc) (fun i hi => h (i + 1) (by simp; omega))]
    simp

theorem splitOnSep_go_sep (rest acc : List Char) :
    splitOnSep.go sep nonempty (sep ++ rest) acc =
      acc.reverse :: splitOnSep.go sep nonempty rest [] := by
  obtain ⟨s, ss, rfl⟩ := List.exists_cons_of_length_pos nonempty
  rw [List.cons_append, splitOnSep.go, if_pos (by simp [List.isPrefixOf_iff_prefix]),
    ← List.cons_append, List.drop_left]

/-- Joining pieces by a separator and splitting again gives the pieces back, when no separator
starts inside a piece that a separator follows. -/
theorem splitOnSep_intercalate (ts : List (List Char)) (hts : ts ≠ [])
    (h : ∀ t ∈ ts, ∀ i < t.length, ∀ rest, sep.isPrefixOf ((t ++ (sep ++ rest)).drop i) = false) :
    splitOnSep.go sep nonempty (sep.intercalate ts) [] = ts := by
  induction ts with
  | nil => exact absurd rfl hts
  | cons t ts ih =>
    cases ts with
    | nil =>
      -- the last piece: a separator starting inside it would start there with one after it too
      have hlast : ∀ i < t.length, sep.isPrefixOf ((t ++ []).drop i) = false := by
        intro i hi
        have hsep := h t List.mem_cons_self i hi []
        rw [List.append_nil]
        rw [List.drop_append_of_le_length hi.le] at hsep
        cases hp : sep.isPrefixOf (t.drop i) with
        | false => rfl
        | true =>
          rw [List.isPrefixOf_iff_prefix] at hp
          have : sep.isPrefixOf (t.drop i ++ (sep ++ [])) = true :=
            List.isPrefixOf_iff_prefix.2 (hp.trans (List.prefix_append _ _))
          rw [this] at hsep
          exact absurd hsep (by decide)
      have hgo : splitOnSep.go sep nonempty (t ++ []) [] =
          splitOnSep.go sep nonempty [] (t.reverse ++ []) := splitOnSep_go_append t [] [] hlast
      simp only [List.append_nil] at hgo
      simp [hgo, splitOnSep_go_nil]
    | cons u us =>
      rw [List.intercalate_cons_cons, List.append_assoc,
        splitOnSep_go_append t _ [] (fun i hi => h t List.mem_cons_self i hi _),
        splitOnSep_go_sep, ih (by simp) (fun t' ht' => h t' (List.mem_cons_of_mem _ ht'))]
      simp

end Split

/-- Inside a term followed by ` OR `, no separator starts unless the term holds ` OR ` or ends
with ` OR`. -/
theorem orSep_isPrefixOf_eq_false {t : List Char} (hinf : ¬" OR ".toList <:+: t)
    (hsuf : ¬" OR".toList <:+ t) (i : Nat) (hi : i < t.length) (rest : List Char) :
    " OR ".toList.isPrefixOf ((t ++ (" OR ".toList ++ rest)).drop i) = false := by
  rw [List.drop_append_of_le_length hi.le]
  have hsufu : t.drop i <:+ t := List.drop_suffix _ _
  match hu : t.drop i with
  | [] => simp at hu; omega
  | [a] => simp [List.isPrefixOf]
  | [a, b] => simp [List.isPrefixOf]
  | [a, b, c] =>
    cases hp : " OR ".toList.isPrefixOf ([a, b, c] ++ (" OR ".toList ++ rest)) with
    | false => rfl
    | true =>
      have habc : a = ' ' ∧ b = 'O' ∧ c = 'R' := by
        simp [List.isPrefixOf] at hp
        exact ⟨hp.1.symm, hp.2.1.symm, hp.2.2.symm⟩
      obtain ⟨rfl, rfl, rfl⟩ := habc
      rw [hu] at hsufu
      exact absurd (by simpa using hsufu) hsuf
  | a :: b :: c :: d :: more =>
    cases hp : " OR ".toList.isPrefixOf (a :: b :: c :: d :: more ++ (" OR ".toList ++ rest)) with
    | false => rfl
    | true =>
      have habcd : a = ' ' ∧ b = 'O' ∧ c = 'R' ∧ d = ' ' := by
        simp [List.isPrefixOf] at hp
        exact ⟨hp.1.symm, hp.2.1.symm, hp.2.2.1.symm, hp.2.2.2.symm⟩
      obtain ⟨rfl, rfl, rfl, rfl⟩ := habcd
      rw [hu] at hsufu
      exact absurd (by simpa using (List.prefix_append _ more).isInfix.trans hsufu.isInfix) hinf

theorem not_mem_intercalate {x : Char} {sep : String} {ts : List String} (hsep : x ∉ sep.toList)
    (h : ∀ t ∈ ts, x ∉ t.toList) : x ∉ (sep.intercalate ts).toList := by
  induction ts with
  | nil => simp
  | cons t ts ih =>
    cases ts with
    | nil => simpa using h t List.mem_cons_self
    | cons u us =>
      rw [String.intercalate_cons_cons]
      simp only [String.toList_append, List.mem_append, not_or]
      exact ⟨⟨h t List.mem_cons_self, hsep⟩, ih (fun t' ht' => h t' (List.mem_cons_of_mem _ ht'))⟩

/-! ## OR-groups -/

/-- The terms of a group: its text split at ` OR `, trimmed, with the empty ones dropped. -/
def groupTerms (content : String) : List String :=
  (splitText " OR " content).map trim |>.filter (fun t => !t.isEmpty)

/-- The predicate of one term of a group: a field test of `key`, or a free word, negated by the
term's own `-`. -/
def groupTermPredicate (key : Option String) (settings : Settings) (term : String) : Predicate :=
  let (neg, t) := stripNegation term
  let t := stripQuotes t
  let p : Predicate := match key with
    | some k => .field (FieldTest.ofKey k t)
    | none => .word (FreeWord.make t settings)
  if neg then .not p else p

theorem groupPredicate_eq (key : Option String) (content : String) (s : Settings) :
    groupPredicate key content s = .or ((groupTerms content).map (groupTermPredicate key s)) :=
  rfl

/-- A term that an OR-group gives back whole: not empty, without `)`, a line feed or ` OR `, and
without blank characters at either end. -/
structure GroupTerm (t : String) : Prop where
  ne_empty : t ≠ ""
  no_paren : ')' ∉ t.toList
  no_newline : '\n' ∉ t.toList
  no_or : ¬" OR ".toList <:+: t.toList
  trimmed : trim t = t

/-- Splitting terms joined by ` OR ` gives them back, when none ends with ` OR`. -/
theorem groupTerms_intercalate {ts : List String} (hts : ∀ t ∈ ts, GroupTerm t)
    (hsuf : ∀ t ∈ ts, ¬" OR".toList <:+ t.toList) : groupTerms (" OR ".intercalate ts) = ts := by
  cases ts with
  | nil => decide +kernel
  | cons t ts =>
    have hsplit : splitOnSep " OR ".toList (" OR ".toList.intercalate
        ((t :: ts).map String.toList)) = (t :: ts).map String.toList := by
      refine splitOnSep_intercalate _ (by simp) ?_
      simp only [List.mem_map]
      rintro _ ⟨u, hu, rfl⟩
      exact orSep_isPrefixOf_eq_false (hts u hu).no_or (hsuf u hu)
    have hterms : ((t :: ts).map trim).filter (fun t => !t.isEmpty) = t :: ts := by
      rw [List.map_congr_left (fun u hu => (hts u hu).trimmed), List.map_id', List.filter_eq_self]
      intro u hu
      simpa using (hts u hu).ne_empty
    simp only [groupTerms, splitText, String.toList_intercalate]
    rw [hsplit, List.map_map, List.map_map]
    simp only [Function.comp_def, String.ofList_toList]
    exact hterms

/-- A whole token never ends with ` OR`: one with a space in it ends with `"` or `)`. -/
theorem not_orSuffix_of_tokenChars {w : List Char} (hw : tokenChars w = [w]) :
    ¬" OR".toList <:+ w := by
  obtain ⟨c, cs, rfl, hc, hlen, -⟩ := tokenChars_eq_singleton_iff.1 hw
  rintro ⟨pre, hpre⟩
  have hsp : ' ' ∈ c :: cs := by rw [← hpre]; simp
  have hlast : (c :: cs).getLast? = some 'R' := by rw [← hpre]; simp
  rcases getLast_of_space_mem hc hlen hsp with h | h <;> rw [hlast] at h <;> simp at h

/-! ## Groups as tokens -/

theorem closedSpan_eq_some {cs pre : List Char} {k : Nat} {opening closing : Char}
    (post : List Char) (h : cs.drop k = opening :: (pre ++ closing :: post)) (hc : closing ∉ pre)
    (hn : '\n' ∉ pre) : closedSpan cs k opening closing = some (k + 1 + (pre.length + 1)) := by
  simp [closedSpan, h, spanTo_append_cons post hc hn]

/-- A group `(inner)` without `)` or a line feed inside is one whole token. -/
theorem tokens_group {inner : String} (hp : ')' ∉ inner.toList) (hn : '\n' ∉ inner.toList) :
    tokens ("(" ++ inner ++ ")") = ["(" ++ inner ++ ")"] := by
  have ht : ("(" ++ inner ++ ")").toList = '(' :: (inner.toList ++ [')']) := by simp
  have hspan : closedSpan ('(' :: (inner.toList ++ [')'])) 0 '(' ')' =
      some (0 + 1 + (inner.toList.length + 1)) := closedSpan_eq_some [] rfl hp hn
  rw [tokens_eq_singleton_iff, ht, tokenChars_eq_singleton_iff]
  refine ⟨'(', _, rfl, by decide, ?_, by simp [isBlank]⟩
  simp [tokenLength_eq, shapeLengths, keyPrefix_cons_of_ne, hspan]

/-- A keyed group `?key:(inner)` without `)` or a line feed inside is one whole token. -/
theorem tokens_keyed_group {key inner : String} (hk : key ≠ "")
    (hkc : ∀ c ∈ key.toList, isKeyChar c = true) (hp : ')' ∉ inner.toList)
    (hn : '\n' ∉ inner.toList) :
    tokens ("?" ++ key ++ ":(" ++ inner ++ ")") = ["?" ++ key ++ ":(" ++ inner ++ ")"] := by
  set body := key.toList ++ ':' :: '(' :: (inner.toList ++ [')']) with hbody
  have ht : ("?" ++ key ++ ":(" ++ inner ++ ")").toList = '?' :: body := by simp [body]
  have hkey : keyPrefix ('?' :: body) = some (1 + key.toList.length + 1) := by
    rw [keyPrefix_question]
    exact keyAfter_eq_some.2 ⟨key.toList, _, rfl, by simpa using hk, hkc, rfl⟩
  have hspan : closedSpan ('?' :: body) (1 + key.toList.length + 1) '(' ')' =
      some (1 + key.toList.length + 1 + 1 + (inner.toList.length + 1)) :=
    closedSpan_eq_some [] (by simp [body, Nat.add_comm 1, List.drop_append]) hp hn
  rw [tokens_eq_singleton_iff, ht, tokenChars_eq_singleton_iff]
  refine ⟨'?', _, rfl, by decide, ?_, by simp [isBlank]⟩
  simp only [tokenLength_eq, shapeLengths, hkey, Option.bind_some, hspan]
  simp [body]
  omega

/-! ## Terms as tokens -/

theorem stripNegation_eq_false {t u : String} (h : stripNegation t = (false, u)) : u = t := by
  unfold stripNegation at h
  split at h <;> simp_all

theorem stripNegation_eq_true {t u : String} (h : stripNegation t = (true, u)) : t = "-" ++ u := by
  unfold stripNegation at h
  split at h
  · next rest hrest =>
    simp only [Prod.mk.injEq, true_and] at h
    rw [← String.toList_inj, hrest, ← h]
    simp
  · simp at h

theorem stripNegation_snd_suffix (t : String) : (stripNegation t).2.toList <:+ t.toList := by
  rcases hsn : stripNegation t with ⟨_ | _, u⟩
  · rw [stripNegation_eq_false hsn]
  · rw [stripNegation_eq_true hsn]
    simp

theorem stripParens?_wrap (inner : String) : stripParens? ("(" ++ inner ++ ")") = some inner := by
  simp [stripParens?]

theorem stripParens?_eq_none {s : String} (h : ')' ∉ s.toList) : stripParens? s = none := by
  unfold stripParens?
  split
  · next rest hrest =>
    split
    · next inner hinner =>
      have hmem : ')' ∈ rest.reverse := by rw [hinner]; exact List.mem_cons_self
      rw [hrest] at h
      exact absurd (List.mem_cons_of_mem _ (List.mem_reverse.1 hmem)) h
    · rfl
  · rfl

theorem splitFirst_append {c : Char} {a b : String} (ha : c ∉ a.toList) :
    splitFirst c (a ++ String.singleton c ++ b) = some (a, b) := by
  have hne : ∀ d ∈ a.toList, (d != c) = true := fun d hd => by
    simpa using ne_of_mem_of_not_mem hd ha
  simp [splitFirst, List.takeWhile_append_of_pos hne, List.dropWhile_append_of_pos hne]

theorem splitColon_append {key value : String} (hk : ':' ∉ key.toList) :
    splitColon (key ++ ":" ++ value) = some (key, value) :=
  splitFirst_append hk

theorem bodyPredicate_unkeyed {s : Settings} {t : String} (h : t.toList.head? ≠ some '?') :
    bodyPredicate s t = some ((stripParens? t).elim (.word (FreeWord.make (stripQuotes t) s))
      (groupPredicate none · s)) := by
  unfold bodyPredicate
  split
  · next keyed hkeyed => simp [hkeyed] at h
  · cases stripParens? t <;> rfl

theorem bodyPredicate_keyed (s : Settings) {key value : String} (hk : ':' ∉ key.toList) :
    bodyPredicate s ("?" ++ key ++ ":" ++ value) =
      some ((stripParens? value).elim (.field (FieldTest.ofKey key (stripQuotes value)))
        (groupPredicate (some key) · s)) := by
  have ht : ("?" ++ key ++ ":" ++ value).toList = '?' :: (key ++ ":" ++ value).toList := by simp
  unfold bodyPredicate
  simp only [ht, String.ofList_toList, splitColon_append hk]
  cases stripParens? value <;> rfl

theorem tokenPredicate_group (s : Settings) (inner : String) :
    tokenPredicate s ("(" ++ inner ++ ")") = some (groupPredicate none inner s) := by
  rw [tokenPredicate_eq, stripNegation_of_head (by simp), bodyPredicate_unkeyed (by simp),
    stripParens?_wrap]
  rfl

theorem tokenPredicate_keyed_group (s : Settings) {key : String} (inner : String)
    (hk : ':' ∉ key.toList) :
    tokenPredicate s ("?" ++ key ++ ":(" ++ inner ++ ")") =
      some (groupPredicate (some key) inner s) := by
  have ht : "?" ++ key ++ ":(" ++ inner ++ ")" = "?" ++ key ++ ":" ++ ("(" ++ inner ++ ")") := by
    simp [← String.toList_inj]
  rw [ht, tokenPredicate_eq, stripNegation_of_head (by simp), bodyPredicate_keyed s hk,
    stripParens?_wrap]
  rfl

/-- A term without `)` whose body after its `-` is not keyed compiles, as a token, to what the
unkeyed group makes of it. -/
theorem tokenPredicate_term (s : Settings) {t : String}
    (hq : (stripNegation t).2.toList.head? ≠ some '?') (hp : ')' ∉ t.toList) :
    tokenPredicate s t = some (groupTermPredicate none s t) := by
  have hp' : ')' ∉ (stripNegation t).2.toList := fun h =>
    hp ((stripNegation_snd_suffix t).subset h)
  rw [tokenPredicate_eq, bodyPredicate_unkeyed hq, stripParens?_eq_none hp']
  unfold groupTermPredicate
  rcases stripNegation t with ⟨_ | _, u⟩ <;> rfl

/-- The keyed token that a term of the keyed group `?key:(...)` stands for: the term's own `-`
goes in front of the whole token. -/
def keyedTerm (key term : String) : String :=
  match stripNegation term with
  | (true, rest) => "-?" ++ key ++ ":" ++ rest
  | (false, _) => "?" ++ key ++ ":" ++ term

/-- A term without `)` compiles, as its keyed token, to what the keyed group makes of it. -/
theorem tokenPredicate_keyedTerm (s : Settings) {key t : String} (hk : ':' ∉ key.toList)
    (hp : ')' ∉ t.toList) :
    tokenPredicate s (keyedTerm key t) = some (groupTermPredicate (some key) s t) := by
  unfold keyedTerm groupTermPredicate
  rcases hsn : stripNegation t with ⟨_ | _, u⟩
  · cases stripNegation_eq_false hsn
    rw [tokenPredicate_eq, stripNegation_of_head (by simp), bodyPredicate_keyed s hk,
      stripParens?_eq_none hp]
    rfl
  · have hu : ')' ∉ u.toList := by
      rw [stripNegation_eq_true hsn] at hp
      simpa using hp
    have ht : "-?" ++ key ++ ":" ++ u = "-" ++ ("?" ++ key ++ ":" ++ u) := by
      simp [← String.toList_inj]
    dsimp only
    rw [ht, tokenPredicate_eq, stripNegation_dash, bodyPredicate_keyed s hk,
      stripParens?_eq_none hu]
    rfl

theorem orSuffix_keyedTerm (key : String) {t : String} (h : " OR".toList <:+ t.toList) :
    " OR".toList <:+ (keyedTerm key t).toList := by
  unfold keyedTerm
  rcases hsn : stripNegation t with ⟨_ | _, u⟩
  · exact h.trans ⟨'?' :: (key.toList ++ [':']), by simp⟩
  · rw [stripNegation_eq_true hsn] at h
    have hu : " OR".toList <:+ u.toList := by
      rcases List.suffix_cons_iff.1 (by simpa using h) with h | h
      · simp at h
      · exact h
    exact hu.trans ⟨'-' :: '?' :: (key.toList ++ [':']), by simp⟩

/-- A group of `GroupTerm`s joined by ` OR `, none ending with ` OR`, holds of a clip exactly
when the predicate of one of its terms does. -/
theorem accepts_groupPredicate_intercalate {ts : List String} (hts : ∀ t ∈ ts, GroupTerm t)
    (hsuf : ∀ t ∈ ts, ¬" OR".toList <:+ t.toList) (key : Option String) (s : Settings)
    (c : Clip) :
    (groupPredicate key (" OR ".intercalate ts) s).accepts c =
      ts.any fun t => (groupTermPredicate key s t).accepts c := by
  rw [groupPredicate_eq, groupTerms_intercalate hts hsuf, Predicate.accepts_or, List.any_map]
  rfl

/-- OR-group law: terms joined by ` OR ` in parentheses hold of a clip exactly when one of them,
as a query of its own, does; in a keyed group `?key:(...)` each term stands for its keyed token.
Every term must be a `GroupTerm`; an unkeyed term must be a whole token whose body is not keyed,
and the keyed token of a keyed term must be a whole token. With no terms the group holds of no
clip. -/
theorem compile_or_group (ts : List String) (hts : ∀ t ∈ ts, GroupTerm t) :
    ((∀ t ∈ ts, (stripNegation t).2.toList.head? ≠ some '?' ∧ tokens t = [t]) →
      ∀ (s : Settings) (c : Clip), (compile ("(" ++ " OR ".intercalate ts ++ ")") s).accepts c =
        ts.any fun t => (compile t s).accepts c) ∧
    ∀ key : String, key ≠ "" → (∀ ch ∈ key.toList, isKeyChar ch = true) →
      (∀ t ∈ ts, tokens (keyedTerm key t) = [keyedTerm key t]) →
      ∀ (s : Settings) (c : Clip),
        (compile ("?" ++ key ++ ":(" ++ " OR ".intercalate ts ++ ")") s).accepts c =
          ts.any fun t => (compile (keyedTerm key t) s).accepts c := by
  have hp : ')' ∉ (" OR ".intercalate ts).toList :=
    not_mem_intercalate (by decide) fun t ht => (hts t ht).no_paren
  have hn : '\n' ∉ (" OR ".intercalate ts).toList :=
    not_mem_intercalate (by decide) fun t ht => (hts t ht).no_newline
  have hgroup : ∀ (key : Option String) (s : Settings) (c : Clip) (q : String → String),
      (∀ t ∈ ts, ¬" OR".toList <:+ t.toList) →
      (∀ t ∈ ts, (compile (q t) s).accepts c = (groupTermPredicate key s t).accepts c) →
      (groupPredicate key (" OR ".intercalate ts) s).accepts c =
        ts.any fun t => (compile (q t) s).accepts c := by
    intro key s c q hsuf hterm
    rw [accepts_groupPredicate_intercalate hts hsuf, Bool.eq_iff_iff]
    simp only [List.any_eq_true]
    exact exists_congr fun t => and_congr_right fun ht => by rw [hterm t ht]
  constructor
  · intro hw s c
    rw [compile_accepts_of_tokens_eq (tokens_group hp hn), tokenPredicate_group, Option.all_some]
    refine hgroup none s c id (fun t ht => ?_) (fun t ht => ?_)
    · exact not_orSuffix_of_tokenChars (tokens_eq_singleton_iff.1 (hw t ht).2)
    · rw [id, compile_accepts_of_tokens_eq (hw t ht).2,
        tokenPredicate_term s (hw t ht).1 (hts t ht).no_paren, Option.all_some]
  · intro key hk hkc hw s c
    have hcolon : ':' ∉ key.toList := fun h => absurd (hkc ':' h) (by decide)
    rw [compile_accepts_of_tokens_eq (tokens_keyed_group hk hkc hp hn),
      tokenPredicate_keyed_group s _ hcolon, Option.all_some]
    refine hgroup (some key) s c (keyedTerm key) (fun t ht hs => ?_) (fun t ht => ?_)
    · exact not_orSuffix_of_tokenChars (tokens_eq_singleton_iff.1 (hw t ht))
        (orSuffix_keyedTerm key hs)
    · rw [compile_accepts_of_tokens_eq (hw t ht),
        tokenPredicate_keyedTerm s hcolon (hts t ht).no_paren, Option.all_some]

/-- A plain word and a negated quoted phrase, as an unkeyed group and as a keyed group, on a clip
of another song. -/
theorem compile_or_group_song :
    (∀ t ∈ ["a", "-\"b c\""], GroupTerm t) ∧
      (compile "(a OR -\"b c\")" Settings.all).accepts { songTitle := some "B C" } =
        ((compile "a" Settings.all).accepts { songTitle := some "B C" } ||
          (compile "-\"b c\"" Settings.all).accepts { songTitle := some "B C" }) ∧
      (compile "?song:(a OR -\"b c\")" Settings.all).accepts { songTitle := some "B C" } =
        ((compile "?song:a" Settings.all).accepts { songTitle := some "B C" } ||
          (compile "-?song:\"b c\"" Settings.all).accepts { songTitle := some "B C" }) := by
  -- each term is a group term, a whole token, and a whole token under the key
  have hterms : ∀ t ∈ ["a", "-\"b c\""], GroupTerm t ∧
      ((stripNegation t).2.toList.head? ≠ some '?' ∧ tokens t = [t]) ∧
      tokens (keyedTerm "song" t) = [keyedTerm "song" t] := by
    intro t ht
    simp only [List.mem_cons, List.not_mem_nil, or_false] at ht
    rcases ht with rfl | rfl <;>
      exact ⟨⟨by decide, by decide, by decide, by decide, by decide +kernel⟩,
        ⟨by decide, by decide +kernel⟩, by decide +kernel⟩
  have hts : ∀ t ∈ ["a", "-\"b c\""], GroupTerm t := fun t ht => (hterms t ht).1
  have hgroup : "(a OR -\"b c\")" = "(" ++ " OR ".intercalate ["a", "-\"b c\""] ++ ")" := by
    simp
  have hkeyed : "?song:(a OR -\"b c\")" =
      "?" ++ "song" ++ ":(" ++ " OR ".intercalate ["a", "-\"b c\""] ++ ")" := by
    simp
  refine ⟨hts, ?_, ?_⟩
  · rw [hgroup, (compile_or_group _ hts).1 fun t ht => (hterms t ht).2.1]
    simp
  · rw [hkeyed, (compile_or_group _ hts).2 "song" (by decide) (by simp [isKeyChar])
      fun t ht => (hterms t ht).2.2]
    simp [keyedTerm, stripNegation]

end ClipSearch.Query
