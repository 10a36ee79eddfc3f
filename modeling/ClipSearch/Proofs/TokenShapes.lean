import Mathlib
import ClipSearch.Query.Token
/-!
# Token shapes

The scanner reads the token at the front of the text by the first of its shapes that fits.
This module says how the length it reads changes when the text is changed at either end.

* After the token a space and any text may follow: every shape reads the same length, unless a
  quote or parenthesis that the token may open runs to the end of the text without its closing
  character or a line feed (`tokenLength_append_space`).
* Before a token that does not start with `-`, a `-` may be put: every shape then reads one
  character more (`tokenLength_dash_cons`).

It also bounds what is read: never more than the text, at least one character when the text
does not start with a space, and a token that takes a space in is a span, so it ends with its
closing `"` or `)` (`getLast_of_space_mem`).
-/
namespace ClipSearch.Query

open ClipSearch.Text

/-! ## Spans -/

/-- A span closed before the end of `body`, or stopped there by a line feed, does not see what
follows `body`. -/
theorem spanTo_append_of_mem {close : Char} {body : List Char} (rest : List Char)
    (h : close ∈ body ∨ '\n' ∈ body) : spanTo close (body ++ rest) = spanTo close body := by
  induction body with
  | nil => simp at h
  | cons c cs ih =>
    by_cases hc : c = close
    · simp [spanTo, hc]
    · by_cases hn : c = '\n'
      · subst hn
        simp [spanTo, hc]
      · have h' : close ∈ cs ∨ '\n' ∈ cs := by
          rcases h with h | h
          · exact .inl ((List.mem_cons.1 h).resolve_left (Ne.symm hc))
          · exact .inr ((List.mem_cons.1 h).resolve_left (Ne.symm hn))
        simp [spanTo, hc, hn, ih h']

/-- A span whose first closing character comes before any line feed ends just after it. -/
theorem spanTo_append_cons {close : Char} {pre : List Char} (post : List Char)
    (hc : close ∉ pre) (hn : '\n' ∉ pre) :
    spanTo close (pre ++ close :: post) = some (pre.length + 1) := by
  induction pre with
  | nil => simp [spanTo]
  | cons c cs ih =>
    have hc' : c ≠ close := fun h => hc (h ▸ List.mem_cons_self)
    have hn' : c ≠ '\n' := fun h => hn (h ▸ List.mem_cons_self)
    simp [spanTo, hc', hn', ih (fun h => hc (List.mem_cons_of_mem c h))
      (fun h => hn (List.mem_cons_of_mem c h))]

/-- A span is read through its closing character, which it ends with. -/
theorem spanTo_eq_some {close : Char} {body : List Char} {n : Nat}
    (h : spanTo close body = some n) : 0 < n ∧ n ≤ body.length ∧ body[n - 1]? = some close := by
  induction body generalizing n with
  | nil => simp [spanTo] at h
  | cons c cs ih =>
    by_cases hc : c = close
    · simp only [spanTo, hc, beq_self_eq_true, ite_true, Option.some.injEq] at h
      subst h
      simp [hc]
    · by_cases hn : c = '\n'
      · subst hn
        simp [spanTo, hc] at h
      · simp only [spanTo, beq_iff_eq, hc, hn, ite_false, Option.map_eq_some_iff] at h
        obtain ⟨m, hm, rfl⟩ := h
        obtain ⟨hpos, hle, hget⟩ := ih hm
        refine ⟨by omega, by simp; omega, ?_⟩
        obtain ⟨k, rfl⟩ : ∃ k, m = k + 1 := ⟨m - 1, by omega⟩
        simpa using hget

/-- The span opening with `opening` at position `k` of `r` runs to the end of `r` with neither
`closing` nor a line feed after it. -/
def runsOff (r : List Char) (k : Nat) (opening closing : Char) : Bool :=
  match r.drop k with
  | d :: body => d == opening && !body.contains closing && !body.contains '\n'
  | [] => false

/-- A span that does not run off the end of `r` reads the same when a space and more text
follow `r`. -/
theorem closedSpan_append_space {r : List Char} {k : Nat} {opening closing : Char}
    (b : List Char) (hk : k ≤ r.length) (ho : opening ≠ ' ')
    (h : runsOff r k opening closing = false) :
    closedSpan (r ++ ' ' :: b) k opening closing = closedSpan r k opening closing := by
  unfold closedSpan
  rw [List.drop_append_of_le_length hk]
  cases hd : r.drop k with
  | nil => simp [Ne.symm ho]
  | cons d body =>
    simp only [runsOff, hd, Bool.and_eq_false_iff, Bool.not_eq_false', List.contains_iff_mem,
      beq_eq_false_iff_ne] at h
    by_cases hdo : d = opening
    · have hstop : closing ∈ body ∨ '\n' ∈ body := by
        rcases h with (h | h) | h
        · exact absurd hdo h
        · exact .inl h
        · exact .inr h
      simp [hdo, spanTo_append_of_mem _ hstop]
    · simp [hdo]

/-! ## Bare runs -/

theorem bareLength_append_space (r b : List Char) :
    bareLength (r ++ ' ' :: b) = bareLength r := by
  unfold bareLength
  rw [List.takeWhile_append]
  split
  · next h =>
    have hr : r.takeWhile (· != ' ') = r := (List.takeWhile_prefix _).eq_of_length h
    simp [hr]
  · rfl

theorem bareAfter_append_space {r : List Char} {k : Nat} (b : List Char) (hk : k ≤ r.length) :
    bareAfter (r ++ ' ' :: b) k = bareAfter r k := by
  unfold bareAfter
  rw [List.drop_append_of_le_length hk, bareLength_append_space]

/-- No character of a bare run is a space. -/
theorem space_not_mem_take_bareLength (r : List Char) : ' ' ∉ r.take (bareLength r) := by
  intro h
  have hrun : r.take (bareLength r) = r.takeWhile (· != ' ') :=
    (List.prefix_iff_eq_take.1 (List.takeWhile_prefix _)).symm
  rw [hrun] at h
  simpa using List.mem_takeWhile_imp h

/-! ## Key prefixes -/

/-- What `keyPrefix` reads after the `?` or `-?` of length `k` that starts a key: a non-empty
run of key characters and then a `:`. -/
def keyAfter (rest : List Char) (k : Nat) : Option Nat :=
  let key := rest.takeWhile isKeyChar
  if key.isEmpty then none
  else match rest.drop key.length with
    | ':' :: _ => some (k + key.length + 1)
    | _ => none

theorem keyPrefix_question (rest : List Char) : keyPrefix ('?' :: rest) = keyAfter rest 1 := by
  simp only [keyPrefix, Option.bind_some, ← List.drop_drop, List.drop_succ_cons, List.drop_zero]
  rfl

theorem keyPrefix_dash_question (rest : List Char) :
    keyPrefix ('-' :: '?' :: rest) = keyAfter rest 2 := by
  simp only [keyPrefix, Option.bind_some, ← List.drop_drop, List.drop_succ_cons, List.drop_zero]
  rfl

theorem keyPrefix_nil : keyPrefix [] = none := rfl

/-- Only `?` and `-?` start a key. -/
theorem keyPrefix_cons_of_ne {c : Char} (rest : List Char) (hq : c ≠ '?') (hd : c ≠ '-') :
    keyPrefix (c :: rest) = none := by
  simp [keyPrefix, hq, hd]

theorem keyPrefix_dash_of_ne {rest : List Char} (h : rest.head? ≠ some '?') :
    keyPrefix ('-' :: rest) = none := by
  cases rest with
  | nil => rfl
  | cons c cs =>
    have hc : c ≠ '?' := by simpa using h
    simp [keyPrefix, hc]

/-- A key is read exactly when a non-empty run of key characters is followed by `:`. -/
theorem keyAfter_eq_some {rest : List Char} {k n : Nat} :
    keyAfter rest k = some n ↔ ∃ key post, rest = key ++ ':' :: post ∧ key ≠ [] ∧
      (∀ c ∈ key, isKeyChar c = true) ∧ n = k + key.length + 1 := by
  constructor
  · intro h
    dsimp only [keyAfter] at h
    split at h
    · simp at h
    · next hne =>
      have hsplit : rest = rest.takeWhile isKeyChar ++ rest.drop (rest.takeWhile isKeyChar).length := by
        conv => lhs; rw [← List.take_append_drop (rest.takeWhile isKeyChar).length rest]
        rw [← List.prefix_iff_eq_take.1 (List.takeWhile_prefix _)]
      split at h
      · next post hpost =>
        refine ⟨rest.takeWhile isKeyChar, post, by rw [← hpost]; exact hsplit, by simpa using hne,
          fun c hc => List.mem_takeWhile_imp hc, by simp at h; omega⟩
      · simp at h
  · rintro ⟨key, post, rfl, hne, hkey, rfl⟩
    have htake : (key ++ ':' :: post).takeWhile isKeyChar = key := by
      rw [List.takeWhile_append, List.takeWhile_eq_self_iff.2 hkey]
      simp [isKeyChar]
    simp [keyAfter, htake, hne]

/-- The key and its `:` hold no space, so a space after the text changes nothing. -/
theorem keyAfter_append_space (rest b : List Char) (k : Nat) :
    keyAfter (rest ++ ' ' :: b) k = keyAfter rest k := by
  apply Option.ext
  intro n
  constructor
  · intro h
    obtain ⟨key, post, hrest, hne, hkey, rfl⟩ := keyAfter_eq_some.1 h
    have hspace : ' ' ∉ key ++ [':'] := by
      intro hs
      rcases List.mem_append.1 hs with hs | hs
      · exact absurd (hkey ' ' hs) (by decide)
      · simp at hs
    rcases List.append_eq_append_iff.1
        (show rest ++ ' ' :: b = (key ++ [':']) ++ post by simpa using hrest) with
      ⟨mid, hmid, hb⟩ | ⟨mid, hmid, -⟩
    · cases mid with
      | nil => exact keyAfter_eq_some.2 ⟨key, [], by simpa using hmid.symm, hne, hkey, rfl⟩
      | cons m ms =>
        have hm : m = ' ' := by simp at hb; exact hb.1.symm
        exact absurd (by rw [hmid, hm]; simp) hspace
    · exact keyAfter_eq_some.2 ⟨key, mid, by simpa using hmid, hne, hkey, rfl⟩
  · intro h
    obtain ⟨key, post, rfl, hne, hkey, rfl⟩ := keyAfter_eq_some.1 h
    exact keyAfter_eq_some.2 ⟨key, post ++ ' ' :: b, by simp, hne, hkey, rfl⟩

theorem keyAfter_succ (rest : List Char) (k : Nat) :
    keyAfter rest (k + 1) = (keyAfter rest k).map (· + 1) := by
  simp only [keyAfter]
  split
  · rfl
  · split <;> simp [Nat.add_right_comm]

/-- A key prefix starts with `?` or `-?`; anything else has none. -/
theorem keyPrefix_cases (r : List Char) :
    (∃ cs, r = '?' :: cs ∧ keyPrefix r = keyAfter cs 1) ∨
      (∃ cs, r = '-' :: '?' :: cs ∧ keyPrefix r = keyAfter cs 2) ∨ keyPrefix r = none := by
  rcases r with _ | ⟨c, cs⟩
  · exact .inr (.inr rfl)
  by_cases hq : c = '?'
  · subst hq
    exact .inl ⟨cs, rfl, keyPrefix_question cs⟩
  by_cases hd : c = '-'
  · subst hd
    rcases cs with _ | ⟨d, ds⟩
    · exact .inr (.inr rfl)
    by_cases hd' : d = '?'
    · subst hd'
      exact .inr (.inl ⟨ds, rfl, keyPrefix_dash_question ds⟩)
    · exact .inr (.inr (keyPrefix_dash_of_ne (by simpa using hd')))
  · exact .inr (.inr (keyPrefix_cons_of_ne cs hq hd))

theorem keyPrefix_append_space (r b : List Char) :
    keyPrefix (r ++ ' ' :: b) = keyPrefix r := by
  rcases r with _ | ⟨c, cs⟩
  · exact keyPrefix_cons_of_ne b (by decide) (by decide)
  by_cases hq : c = '?'
  · subst hq
    simp only [List.cons_append, keyPrefix_question, keyAfter_append_space]
  by_cases hd : c = '-'
  · subst hd
    rcases cs with _ | ⟨d, ds⟩
    · exact keyPrefix_dash_of_ne (by simp)
    by_cases hd' : d = '?'
    · subst hd'
      simp only [List.cons_append, keyPrefix_dash_question, keyAfter_append_space]
    · rw [List.cons_append, List.cons_append, keyPrefix_dash_of_ne (by simpa using hd'),
        keyPrefix_dash_of_ne (by simpa using hd')]
  · rw [List.cons_append, keyPrefix_cons_of_ne _ hq hd, keyPrefix_cons_of_ne _ hq hd]

/-- A `-` in front of a key prefix lengthens it by one. -/
theorem keyPrefix_dash_cons {t : List Char} (h : t.head? ≠ some '-') :
    keyPrefix ('-' :: t) = (keyPrefix t).map (· + 1) := by
  rcases t with _ | ⟨c, cs⟩
  · rfl
  by_cases hq : c = '?'
  · subst hq
    rw [keyPrefix_dash_question, keyPrefix_question, keyAfter_succ]
  · have hd : c ≠ '-' := by simpa using h
    rw [keyPrefix_dash_of_ne (by simpa using hq), keyPrefix_cons_of_ne cs hq hd]
    rfl

/-- A key prefix lies within the text and holds no space. -/
theorem keyPrefix_spec {r : List Char} {n : Nat} (h : keyPrefix r = some n) :
    n ≤ r.length ∧ ' ' ∉ r.take n := by
  obtain ⟨pre, post, rfl, rfl, hpre⟩ :
      ∃ pre post, r = pre ++ post ∧ pre.length = n ∧ ' ' ∉ pre := by
    have hkey : ∀ key : List Char, (∀ c ∈ key, isKeyChar c = true) → ' ' ∉ key :=
      fun key hk hs => absurd (hk ' ' hs) (by decide)
    rcases keyPrefix_cases r with ⟨cs, rfl, hk⟩ | ⟨cs, rfl, hk⟩ | hk
    · obtain ⟨key, post, rfl, -, hchars, rfl⟩ := keyAfter_eq_some.1 (hk ▸ h)
      exact ⟨'?' :: (key ++ [':']), post, by simp, by simp; omega, by simp [hkey key hchars]⟩
    · obtain ⟨key, post, rfl, -, hchars, rfl⟩ := keyAfter_eq_some.1 (hk ▸ h)
      exact ⟨'-' :: '?' :: (key ++ [':']), post, by simp, by simp; omega,
        by simp [hkey key hchars]⟩
    · simp [hk] at h
  simp [List.take_left' rfl, hpre]

/-! ## The token at the front -/

/-- The lengths that the shapes of `tokenLength` read at the front of `cs`, in the order they
are tried, with whether `cs` starts with `-` given as `negated`; `none` where a shape does not
fit. -/
def shapeLengths (negated : Bool) (cs : List Char) : List (Option Nat) :=
  [(keyPrefix cs).bind (fun k => closedSpan cs k '(' ')'),
   (keyPrefix cs).bind (fun k => closedSpan cs k '"' '"'),
   (keyPrefix cs).bind (fun k => bareAfter cs k),
   closedSpan cs (if negated then 1 else 0) '(' ')',
   if negated then closedSpan cs 1 '"' '"' else none,
   if negated then bareAfter cs 1 else none,
   closedSpan cs 0 '"' '"']

/-- The token at the front is read by the first shape that fits, else up to the next space. -/
theorem tokenLength_eq (cs : List Char) :
    tokenLength cs =
      ((shapeLengths (cs.head? == some '-') cs).findSome? id).getD (bareLength cs) := by
  unfold tokenLength shapeLengths
  split
  · simp only [List.head?_cons, beq_self_eq_true, ite_true]
    cases List.findSome? id _ <;> rfl
  · next hneg =>
    have hf : (cs.head? == some '-') = false := by
      cases cs with
      | nil => rfl
      | cons c cs =>
        have hc : c ≠ '-' := fun h => hneg cs (by rw [h])
        simpa using hc
    simp only [hf, Bool.false_eq_true, ite_false]
    cases List.findSome? id _ <;> rfl

/-! ## A space after the token -/

/-- The places where a token at the front of `r` may open a quoted or parenthesized span: the
front, after a leading `-`, and after a key prefix. -/
def spanStarts (r : List Char) : List Nat :=
  0 :: ((if r.head? == some '-' then [1] else []) ++ (keyPrefix r).toList)

/-- Some quote or parenthesis that a token at the front of `r` may open runs to the end of `r`
without its closing character or a line feed. -/
def openSpan (r : List Char) : Bool :=
  (spanStarts r).any fun k => runsOff r k '"' '"' || runsOff r k '(' ')'

theorem le_length_of_mem_spanStarts {r : List Char} {k : Nat} (hr : r ≠ [])
    (hk : k ∈ spanStarts r) : k ≤ r.length := by
  simp only [spanStarts, List.mem_cons, List.mem_append] at hk
  rcases hk with rfl | hk | hk
  · exact Nat.zero_le _
  · split at hk
    · have : k = 1 := by simpa using hk
      subst this
      exact List.length_pos_iff.2 hr
    · simp at hk
  · exact (keyPrefix_spec (Option.mem_def.1 (Option.mem_toList.1 hk))).1

theorem closedSpan_append_space_of_openSpan {r : List Char} {k : Nat} (b : List Char)
    (hr : r ≠ []) (h : openSpan r = false) (hk : k ∈ spanStarts r) :
    closedSpan (r ++ ' ' :: b) k '"' '"' = closedSpan r k '"' '"' ∧
      closedSpan (r ++ ' ' :: b) k '(' ')' = closedSpan r k '(' ')' := by
  simp only [openSpan, List.any_eq_false, Bool.or_eq_true, not_or, Bool.not_eq_true] at h
  have hle := le_length_of_mem_spanStarts hr hk
  exact ⟨closedSpan_append_space b hle (by decide) (h k hk).1,
    closedSpan_append_space b hle (by decide) (h k hk).2⟩

theorem shapeLengths_append_space {r : List Char} (b : List Char) (hr : r ≠ [])
    (h : openSpan r = false) :
    shapeLengths (r.head? == some '-') (r ++ ' ' :: b) = shapeLengths (r.head? == some '-') r := by
  have hspan := fun k (hk : k ∈ spanStarts r) => closedSpan_append_space_of_openSpan b hr h hk
  have h0 := hspan 0 List.mem_cons_self
  unfold shapeLengths
  rw [keyPrefix_append_space, h0.1]
  have hkeyed : ((keyPrefix r).bind fun k => closedSpan (r ++ ' ' :: b) k '(' ')') =
        (keyPrefix r).bind (fun k => closedSpan r k '(' ')') ∧
      ((keyPrefix r).bind fun k => closedSpan (r ++ ' ' :: b) k '"' '"') =
        (keyPrefix r).bind (fun k => closedSpan r k '"' '"') ∧
      ((keyPrefix r).bind fun k => bareAfter (r ++ ' ' :: b) k) =
        (keyPrefix r).bind (fun k => bareAfter r k) := by
    cases hk : keyPrefix r with
    | none => simp
    | some k =>
      have hmem : k ∈ spanStarts r := by simp [spanStarts, hk]
      simp [(hspan k hmem).1, (hspan k hmem).2,
        bareAfter_append_space b (keyPrefix_spec hk).1]
  rw [hkeyed.1, hkeyed.2.1, hkeyed.2.2]
  cases hneg : r.head? == some '-'
  · simp [h0.2]
  · have h1 := hspan 1 (by simp [spanStarts, hneg])
    have hlen : 1 ≤ r.length := List.length_pos_iff.2 hr
    simp [h1.1, h1.2, bareAfter_append_space b hlen]

/-- A space and any text after a token change nothing of what the scanner reads, unless a span
the token opens runs to the end unclosed. -/
theorem tokenLength_append_space {r : List Char} (b : List Char) (hr : r ≠ [])
    (h : openSpan r = false) : tokenLength (r ++ ' ' :: b) = tokenLength r := by
  have hhead : (r ++ ' ' :: b).head? = r.head? := by
    obtain ⟨c, cs, rfl⟩ := List.exists_cons_of_ne_nil hr
    rfl
  rw [tokenLength_eq, tokenLength_eq, hhead, shapeLengths_append_space b hr h,
    bareLength_append_space]

/-! ## A `-` before the token -/

theorem closedSpan_dash_cons (t : List Char) (k : Nat) (opening closing : Char) :
    closedSpan ('-' :: t) (k + 1) opening closing = (closedSpan t k opening closing).map (· + 1) := by
  unfold closedSpan
  rw [List.drop_succ_cons]
  cases t.drop k with
  | nil => rfl
  | cons d body =>
    simp only
    split
    · simp only [Option.map_map]
      congr 1
      funext m
      simp only [Function.comp_apply]
      omega
    · rfl

theorem bareAfter_dash_cons (t : List Char) (k : Nat) :
    bareAfter ('-' :: t) (k + 1) = (bareAfter t k).map (· + 1) := by
  unfold bareAfter
  rw [List.drop_succ_cons]
  split
  · simp_all
  · next n hn => simp; omega

theorem bareLength_pos {c : Char} (cs : List Char) (hc : c ≠ ' ') : 0 < bareLength (c :: cs) := by
  simp [bareLength, hc]

/-- A `-` in front of a token that does not start with `-` or a space is read with it: every
shape reads one character more, and the run up to a space becomes the negated bare word. -/
theorem tokenLength_dash_cons {c : Char} {cs : List Char} (hs : c ≠ ' ') (hd : c ≠ '-') :
    tokenLength ('-' :: c :: cs) = tokenLength (c :: cs) + 1 := by
  have hkey : keyPrefix ('-' :: c :: cs) = (keyPrefix (c :: cs)).map (· + 1) :=
    keyPrefix_dash_cons (by simpa using hd)
  have hbare : bareAfter ('-' :: c :: cs) 1 = some (bareLength (c :: cs) + 1) := by
    obtain ⟨n, hn⟩ : ∃ n, bareLength (c :: cs) = n + 1 :=
      ⟨_, (Nat.succ_pred_eq_of_pos (bareLength_pos cs hs)).symm⟩
    simp only [bareAfter, List.drop_one, List.tail_cons, hn]
    rw [Nat.add_comm]
  rw [tokenLength_eq, tokenLength_eq]
  have hq0 : closedSpan ('-' :: c :: cs) 0 '"' '"' = none := by simp [closedSpan]
  have hbind : ∀ g : Nat → Option Nat, ((keyPrefix (c :: cs)).bind fun k => (g k).map (· + 1)) =
      ((keyPrefix (c :: cs)).bind g).map (· + 1) := fun g => by
    cases keyPrefix (c :: cs) <;> rfl
  simp only [List.head?_cons, beq_self_eq_true, Option.some.injEq, hd, beq_iff_eq,
    shapeLengths, hkey, ite_true, ite_false]
  simp only [Option.bind_map, Function.comp_def, closedSpan_dash_cons, bareAfter_dash_cons,
    hbare, hq0, hbind]
  cases (keyPrefix (c :: cs)).bind fun k => closedSpan (c :: cs) k '(' ')' <;>
    cases (keyPrefix (c :: cs)).bind fun k => closedSpan (c :: cs) k '"' '"' <;>
    cases (keyPrefix (c :: cs)).bind fun k => bareAfter (c :: cs) k <;>
    cases closedSpan (c :: cs) 0 '(' ')' <;> cases closedSpan (c :: cs) 0 '"' '"' <;> rfl

/-! ## What a token holds -/

/-- A length `n` read at the front of `r`: at least one character, within `r`, and through a
closing `"` or `)` when a space lies within it. -/
def TokenRead (r : List Char) (n : Nat) : Prop :=
  0 < n ∧ n ≤ r.length ∧
    (' ' ∈ r.take n → (r.take n).getLast? = some '"' ∨ (r.take n).getLast? = some ')')

theorem tokenRead_closedSpan {r : List Char} {k n : Nat} {opening closing : Char}
    (h : closedSpan r k opening closing = some n) (hc : closing = '"' ∨ closing = ')') :
    TokenRead r n := by
  unfold closedSpan at h
  cases hd : r.drop k with
  | nil => simp [hd] at h
  | cons d body =>
    simp only [hd] at h
    split at h
    · obtain ⟨m, hm, rfl⟩ := Option.map_eq_some_iff.1 h
      obtain ⟨hpos, hle, hget⟩ := spanTo_eq_some hm
      have hlen : r.length = k + 1 + body.length := by
        have := congrArg List.length hd
        simp at this
        omega
      have hlast : r[k + 1 + m - 1]? = some closing := by
        rw [show k + 1 + m - 1 = k + (1 + (m - 1)) by omega, ← List.getElem?_drop, hd]
        simpa [Nat.add_comm 1] using hget
      refine ⟨by omega, by omega, fun _ => ?_⟩
      rw [List.getLast?_take, if_neg (by omega), hlast]
      rcases hc with rfl | rfl <;> simp
    · simp at h

theorem tokenRead_bareAfter {r : List Char} {k n : Nat} (h : bareAfter r k = some n)
    (hk : ' ' ∉ r.take k) : TokenRead r n := by
  unfold bareAfter at h
  cases hm : bareLength (r.drop k) with
  | zero => simp [hm] at h
  | succ m =>
    simp only [hm, Option.some.injEq] at h
    subst h
    have hle : m + 1 ≤ (r.drop k).length := hm ▸ (List.takeWhile_prefix _).length_le
    refine ⟨by omega, by simp at hle; omega, fun hs => ?_⟩
    rw [List.take_add, ← hm] at hs
    rcases List.mem_append.1 hs with hs | hs
    · exact absurd hs hk
    · exact absurd hs (space_not_mem_take_bareLength _)

theorem tokenRead_bareLength {c : Char} (cs : List Char) (hc : c ≠ ' ') :
    TokenRead (c :: cs) (bareLength (c :: cs)) :=
  ⟨bareLength_pos cs hc, (List.takeWhile_prefix _).length_le,
    fun hs => absurd hs (space_not_mem_take_bareLength _)⟩

/-- Whatever shape reads the token at the front, what it reads is a `TokenRead`. -/
theorem tokenRead_tokenLength {c : Char} (cs : List Char) (hc : c ≠ ' ') :
    TokenRead (c :: cs) (tokenLength (c :: cs)) := by
  rw [tokenLength_eq]
  cases hf : (shapeLengths ((c :: cs).head? == some '-') (c :: cs)).findSome? id with
  | none => exact tokenRead_bareLength cs hc
  | some n =>
    obtain ⟨x, hx, hxn⟩ := List.exists_of_findSome?_eq_some hf
    simp only [id] at hxn
    subst hxn
    simp only [shapeLengths, List.mem_cons, List.not_mem_nil, or_false] at hx
    have hkey : ∀ {k}, keyPrefix (c :: cs) = some k → ' ' ∉ (c :: cs).take k :=
      fun hk => (keyPrefix_spec hk).2
    rcases hx with hx | hx | hx | hx | hx | hx | hx
    · obtain ⟨k, -, hs⟩ := Option.bind_eq_some_iff.1 hx.symm
      exact tokenRead_closedSpan hs (.inr rfl)
    · obtain ⟨k, -, hs⟩ := Option.bind_eq_some_iff.1 hx.symm
      exact tokenRead_closedSpan hs (.inl rfl)
    · obtain ⟨k, hk, hs⟩ := Option.bind_eq_some_iff.1 hx.symm
      exact tokenRead_bareAfter hs (hkey hk)
    · exact tokenRead_closedSpan hx.symm (.inr rfl)
    · split at hx
      · exact tokenRead_closedSpan hx.symm (.inl rfl)
      · simp at hx
    · split at hx
      · next hd =>
        have hdash : c = '-' := by simpa using hd
        exact tokenRead_bareAfter hx.symm (by simp [hdash])
      · simp at hx
    · exact tokenRead_closedSpan hx.symm (.inl rfl)

/-- A token that takes the whole text in and holds a space is a quoted or parenthesized span: it
ends with `"` or `)`. -/
theorem getLast_of_space_mem {c : Char} {cs : List Char} (hc : c ≠ ' ')
    (hlen : (c :: cs).length ≤ tokenLength (c :: cs)) (hs : ' ' ∈ c :: cs) :
    (c :: cs).getLast? = some '"' ∨ (c :: cs).getLast? = some ')' := by
  obtain ⟨-, -, hspan⟩ := tokenRead_tokenLength cs hc
  rw [List.take_of_length_le hlen] at hspan
  exact hspan hs

end ClipSearch.Query
