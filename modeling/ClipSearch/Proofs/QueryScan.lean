import ClipSearch.Proofs.TokenShapes
import ClipSearch.Query.Parse
/-!
# Scanning and compiling whole queries

A query is scanned into tokens from the left (`tokenChars`), and its tokens are compiled one by
one and joined by `and` (`compile`). Both steps distribute over a space between two queries: if
no quote or parenthesis that a token of `a` may open is left open at the end of `a`, the tokens
of `a ++ " " ++ b` are those of `a` followed by those of `b`, and the compiled query holds of a
clip exactly when both halves do (`compile_append_space`).

The scan loses nothing but blanks: the text is its tokens in order with only blank characters
before, between and after them (`Tiles`, `tokens_tile`). Lengths are counted in characters, so
every cut falls between two characters.
-/
namespace ClipSearch.Query

open ClipSearch.Catalog ClipSearch.Text

/-! ## Evaluating compiled queries -/

namespace Predicate

@[simp] theorem accepts_and (c : Clip) (ps : List Predicate) :
    accepts c (.and ps) = ps.all (accepts c) := by
  simp [accepts]

@[simp] theorem accepts_or (c : Clip) (ps : List Predicate) :
    accepts c (.or ps) = ps.any (accepts c) := by
  simp [accepts]

@[simp] theorem accepts_not (c : Clip) (p : Predicate) : accepts c (.not p) = !accepts c p := by
  simp [accepts]

end Predicate

theorem compile_accepts (q : String) (s : Settings) (c : Clip) :
    (compile q s).accepts c = ((tokens q).filterMap (tokenPredicate s)).all (·.accepts c) := by
  simp [compile]

/-! ## Where tokens start -/

/-- The suffixes of `cs` at which the scanner starts a token, in order; a token that turns out
blank and is dropped still starts here. -/
def tokenStarts (cs : List Char) : List (List Char) :=
  match cs with
  | [] => []
  | c :: rest =>
    if c == ' ' then tokenStarts rest
    else (c :: rest) :: tokenStarts ((c :: rest).drop (max 1 (tokenLength (c :: rest))))
termination_by cs.length
decreasing_by
  all_goals simp only [List.length_cons, List.length_drop]
  all_goals omega

theorem tokenChars_space (rest : List Char) : tokenChars (' ' :: rest) = tokenChars rest := by
  rw [tokenChars]
  simp

theorem tokenStarts_space (rest : List Char) : tokenStarts (' ' :: rest) = tokenStarts rest := by
  rw [tokenStarts]
  simp

/-- A token starting with another character is read by `tokenLength`, and kept unless blank. -/
theorem tokenChars_token {c : Char} (rest : List Char) (hc : c ≠ ' ') :
    tokenChars (c :: rest) =
      (if ((c :: rest).take (tokenLength (c :: rest))).all isBlank then []
        else [(c :: rest).take (tokenLength (c :: rest))]) ++
      tokenChars ((c :: rest).drop (tokenLength (c :: rest))) := by
  have hn : max 1 (tokenLength (c :: rest)) = tokenLength (c :: rest) :=
    Nat.max_eq_right (tokenRead_tokenLength rest hc).1
  rw [tokenChars]
  simp only [beq_iff_eq, hc, ite_false, hn]
  split <;> rfl

theorem tokenStarts_token {c : Char} (rest : List Char) (hc : c ≠ ' ') :
    tokenStarts (c :: rest) =
      (c :: rest) :: tokenStarts ((c :: rest).drop (tokenLength (c :: rest))) := by
  have hn : max 1 (tokenLength (c :: rest)) = tokenLength (c :: rest) :=
    Nat.max_eq_right (tokenRead_tokenLength rest hc).1
  rw [tokenStarts]
  simp [hc, hn]

/-! ## A space between two queries -/

/-- The scan of `a`, a space and `b` is the scan of `a` and then that of `b`, when no token of
`a` leaves a quote or parenthesis open at the end of `a`. -/
theorem tokenChars_append_space (b : List Char) (a : List Char)
    (h : ∀ r ∈ tokenStarts a, openSpan r = false) :
    tokenChars (a ++ ' ' :: b) = tokenChars a ++ tokenChars b := by
  induction a using tokenChars.induct with
  | case1 => simp [tokenChars_space, tokenChars_nil]
  | case2 c cs hc ih =>
    have hc : c = ' ' := by simpa using hc
    subst hc
    rw [List.cons_append, tokenChars_space, tokenChars_space]
    exact ih (by simpa [tokenStarts_space] using h)
  | case3 c cs hc n tok _ ih | case4 c cs hc n tok _ ih =>
    have hc : c ≠ ' ' := by simpa using hc
    have hn : n = tokenLength (c :: cs) := Nat.max_eq_right (tokenRead_tokenLength cs hc).1
    rw [hn] at ih
    rw [tokenStarts_token cs hc] at h
    have hfront : openSpan (c :: cs) = false := h _ List.mem_cons_self
    have hle : tokenLength (c :: cs) ≤ (c :: cs).length := (tokenRead_tokenLength cs hc).2.1
    -- the first token is read the same with `b` behind it, and the scan goes on inside `a`
    have hfirst : tokenChars ((c :: cs) ++ ' ' :: b) =
        (if ((c :: cs).take (tokenLength (c :: cs))).all isBlank then []
          else [(c :: cs).take (tokenLength (c :: cs))]) ++
        tokenChars ((c :: cs).drop (tokenLength (c :: cs)) ++ ' ' :: b) := by
      rw [List.cons_append, tokenChars_token _ hc, ← List.cons_append,
        tokenLength_append_space b (List.cons_ne_nil c cs) hfront,
        List.take_append_of_le_length hle, List.drop_append_of_le_length hle]
    rw [hfirst, tokenChars_token cs hc, ih (fun r hr => h r (List.mem_cons_of_mem _ hr)),
      List.append_assoc]

/-! ## Queries of one token -/

theorem length_le_of_mem_tokenChars {cs tok : List Char} (h : tok ∈ tokenChars cs) :
    tok.length ≤ cs.length := by
  induction cs using tokenChars.induct with
  | case1 => simp [tokenChars_nil] at h
  | case2 c cs hc ih =>
    have hc : c = ' ' := by simpa using hc
    subst hc
    rw [tokenChars_space] at h
    exact (ih h).trans (Nat.le_succ _)
  | case3 c cs hc n _ _ ih | case4 c cs hc n _ _ ih =>
    have hc : c ≠ ' ' := by simpa using hc
    have hn : n = tokenLength (c :: cs) := Nat.max_eq_right (tokenRead_tokenLength cs hc).1
    rw [hn] at ih
    rw [tokenChars_token cs hc] at h
    rcases List.mem_append.1 h with h | h
    · split at h
      · simp at h
      · rw [List.mem_singleton.1 h]
        exact List.length_take_le' _ _
    · exact (ih h).trans (by simp)

/-- A text is one whole token exactly when the token at its front, which does not start with a
space, takes it all in and is not blank. -/
theorem tokenChars_eq_singleton_iff {t : List Char} :
    tokenChars t = [t] ↔
      ∃ c cs, t = c :: cs ∧ c ≠ ' ' ∧ t.length ≤ tokenLength t ∧ t.all isBlank = false := by
  constructor
  · intro h
    rcases t with _ | ⟨c, cs⟩
    · simp [tokenChars_nil] at h
    by_cases hc : c = ' '
    · subst hc
      rw [tokenChars_space] at h
      have := length_le_of_mem_tokenChars (h ▸ List.mem_singleton_self _)
      simp only [List.length_cons] at this
      omega
    rw [tokenChars_token cs hc] at h
    have hpos := (tokenRead_tokenLength cs hc).1
    split at h
    · have := length_le_of_mem_tokenChars (h ▸ List.mem_singleton_self _)
      simp only [List.length_cons, List.length_drop] at this
      omega
    · next hblank =>
      have htake : (c :: cs).take (tokenLength (c :: cs)) = c :: cs := (List.cons_eq_cons.1 h).1
      have hlen := congrArg List.length htake
      simp only [List.length_take] at hlen
      refine ⟨c, cs, rfl, hc, by omega, ?_⟩
      rw [htake] at hblank
      simpa using hblank
  · rintro ⟨c, cs, rfl, hc, hlen, hblank⟩
    rw [tokenChars_token cs hc, List.take_of_length_le hlen, List.drop_of_length_le hlen,
      tokenChars_nil, hblank]
    rfl

theorem tokens_eq_singleton_iff {t : String} : tokens t = [t] ↔ tokenChars t.toList = [t.toList] := by
  constructor
  · intro h
    obtain ⟨tok, htok, heq⟩ := List.map_eq_singleton_iff.1 h
    rw [htok, ← heq, String.toList_ofList]
  · intro h
    rw [tokens, h]
    simp

theorem tokens_append_space (a b : String) (h : ∀ r ∈ tokenStarts a.toList, openSpan r = false) :
    tokens (a ++ " " ++ b) = tokens a ++ tokens b := by
  have hchars : (a ++ " " ++ b).toList = a.toList ++ ' ' :: b.toList := by simp
  rw [tokens, hchars, tokenChars_append_space _ _ h, List.map_append]
  rfl

/-- Tokens joined by `and` on both sides: a query whose tokens are those of `a` and then those of
`b` holds of a clip exactly when both `a` and `b` do. -/
theorem accepts_of_tokens_append {q a b : String} (h : tokens q = tokens a ++ tokens b)
    (s : Settings) (c : Clip) :
    (compile q s).accepts c = ((compile a s).accepts c && (compile b s).accepts c) := by
  rw [compile_accepts, compile_accepts, compile_accepts, h, List.filterMap_append, List.all_append]

theorem suffix_of_mem_tokenStarts {cs r : List Char} (h : r ∈ tokenStarts cs) : r <:+ cs := by
  induction cs using tokenStarts.induct with
  | case1 => simp [tokenStarts] at h
  | case2 c cs hc ih =>
    have hc : c = ' ' := by simpa using hc
    subst hc
    rw [tokenStarts_space] at h
    exact (ih h).trans (List.suffix_cons _ _)
  | case3 c cs hc ih =>
    have hc : c ≠ ' ' := by simpa using hc
    rw [tokenStarts] at h
    simp only [beq_iff_eq, hc, ite_false, List.mem_cons] at h
    rcases h with rfl | h
    · exact List.suffix_refl _
    · exact (ih h).trans (List.drop_suffix _ _)

theorem openSpan_eq_false_of_not_mem {r : List Char} (hq : '"' ∉ r) (hp : '(' ∉ r) :
    openSpan r = false := by
  have hrun : ∀ k (o c : Char), o ∉ r → runsOff r k o c = false := by
    intro k o c ho
    unfold runsOff
    split
    · next d body hd =>
      have hd' : d ≠ o := by
        rintro rfl
        have hmem : d ∈ r.drop k := by rw [hd]; exact List.mem_cons_self
        exact ho (List.mem_of_mem_drop hmem)
      simp [hd']
    · rfl
  simp [openSpan, hrun _ _ _ hq, hrun _ _ _ hp]

/-- In particular, a query without `"` and `(` composes with anything after a space. -/
theorem tokens_append_space_of_plain (a b : String) (hq : '"' ∉ a.toList) (hp : '(' ∉ a.toList) :
    tokens (a ++ " " ++ b) = tokens a ++ tokens b :=
  tokens_append_space a b fun _ hr =>
    have hsuf := suffix_of_mem_tokenStarts hr
    openSpan_eq_false_of_not_mem (fun h => hq (hsuf.subset h)) (fun h => hp (hsuf.subset h))

/-- AND composition: when no token of `a` leaves a quote or parenthesis open at the end of `a`,
the query `a ++ " " ++ b` has the tokens of `a` followed by those of `b`, and for any settings it
holds of a clip exactly when `a` and `b` both do. -/
theorem compile_append_space (a b : String) (h : ∀ r ∈ tokenStarts a.toList, openSpan r = false) :
    tokens (a ++ " " ++ b) = tokens a ++ tokens b ∧
      ∀ (s : Settings) (c : Clip),
        (compile (a ++ " " ++ b) s).accepts c = ((compile a s).accepts c && (compile b s).accepts c) :=
  ⟨tokens_append_space a b h, accepts_of_tokens_append (tokens_append_space a b h)⟩

/-- A quoted keyed value with a space, then a group: nothing is left open. -/
theorem compile_append_space_quoted :
    (∀ r ∈ tokenStarts "?song:\"a b\" -x".toList, openSpan r = false) ∧
      tokens ("?song:\"a b\" -x" ++ " " ++ "(y OR z)") = ["?song:\"a b\"", "-x", "(y OR z)"] := by
  have h : ∀ r ∈ tokenStarts "?song:\"a b\" -x".toList, openSpan r = false := by decide +kernel
  refine ⟨h, ?_⟩
  rw [(compile_append_space _ _ h).1]
  decide +kernel

/-! ## What the scan covers -/

/-- `Tiles cs ts`: the text `cs` is the tokens `ts` in order with only blank characters before,
between and after them. Each token is non-empty, does not start with a space and holds a
character that is not blank. -/
inductive Tiles : List Char → List (List Char) → Prop
  | nil : Tiles [] []
  | blank {c : Char} {cs : List Char} {ts : List (List Char)} :
      isBlank c = true → Tiles cs ts → Tiles (c :: cs) ts
  | token {c : Char} {tok cs : List Char} {ts : List (List Char)} :
      c ≠ ' ' → (c :: tok).all isBlank = false → Tiles cs ts →
        Tiles (c :: tok ++ cs) ((c :: tok) :: ts)

namespace Tiles

/-- A run of blank characters may stand in front of any tiling. -/
theorem blanks {g cs : List Char} {ts : List (List Char)} (hg : g.all isBlank = true)
    (h : Tiles cs ts) : Tiles (g ++ cs) ts := by
  induction g with
  | nil => exact h
  | cons c g ih =>
    rw [List.all_cons, Bool.and_eq_true] at hg
    exact .blank hg.1 (ih hg.2)

/-- Deleting the blank characters of a tiled text leaves those of its tokens. -/
theorem filter_eq {cs : List Char} {ts : List (List Char)} (h : Tiles cs ts) :
    cs.filter (fun c => !isBlank c) = ts.flatten.filter (fun c => !isBlank c) := by
  induction h with
  | nil => rfl
  | blank hc _ ih => simp [hc, ih]
  | token _ _ _ ih => rw [List.filter_append, List.flatten_cons, List.filter_append, ih]

end Tiles

/-- The scan tiles its text: the spaces it steps over and the blank tokens it drops are the only
characters left out. -/
theorem tiles_tokenChars (cs : List Char) : Tiles cs (tokenChars cs) := by
  induction cs using tokenChars.induct with
  | case1 => rw [tokenChars_nil]; exact .nil
  | case2 c cs hc ih =>
    have hc : c = ' ' := by simpa using hc
    subst hc
    rw [tokenChars_space]
    exact .blank (by decide) ih
  | case3 c cs hc n tok hblank ih =>
    -- a blank token is dropped: its characters join the gap before the next token
    rw [tokenChars]
    simp only [hc, Bool.false_eq_true, if_false]
    rw [if_pos hblank]
    have h := Tiles.blanks hblank ih
    rwa [List.take_append_drop] at h
  | case4 c cs hc n tok hblank ih =>
    have hc : c ≠ ' ' := by simpa using hc
    rw [tokenChars]
    simp only [beq_iff_eq, hc, if_false]
    rw [if_neg hblank]
    have hn : n - 1 + 1 = n := Nat.sub_add_cancel (le_max_left _ _)
    have htake : tok = c :: cs.take (n - 1) := by rw [← List.take_succ_cons, hn]
    have hdrop : (c :: cs).drop n = cs.drop (n - 1) := by
      nth_rewrite 1 [← hn]
      exact List.drop_succ_cons
    have h := Tiles.token hc (htake ▸ Bool.eq_false_iff.2 hblank) (hdrop ▸ ih)
    rw [List.cons_append, List.take_append_drop] at h
    show Tiles (c :: cs) (tok :: tokenChars ((c :: cs).drop n))
    rwa [htake, hdrop]

/-- Query text is its tokens in order with only blank characters around them: each token is a
non-empty piece of the text that does not start with a space and is not all blank, the pieces
come in the order of the text without overlapping, and every character outside them is blank.
So deleting the blank characters from the text and from the joined tokens gives the same
characters. -/
theorem tokens_tile (s : String) :
    Tiles s.toList ((tokens s).map String.toList) ∧
      s.toList.filter (fun c => !isBlank c) =
        ((tokens s).map String.toList).flatten.filter (fun c => !isBlank c) := by
  have hchars : (tokens s).map String.toList = tokenChars s.toList := by
    simp [tokens, Function.comp_def]
  rw [hchars]
  exact ⟨tiles_tokenChars _, (tiles_tokenChars _).filter_eq⟩

end ClipSearch.Query
