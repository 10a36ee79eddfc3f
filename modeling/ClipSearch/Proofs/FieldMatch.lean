import ClipSearch.Proofs.Labels
/-!
# Free words and the pieces of a field

A free word is looked for in each field that the settings switch on, and there it is that
field's keyed test: it holds of a clip exactly when the keyed test of some switched-on field
does (`FreeWord.accepts_make_iff`).

Lowercasing reads each character on its own except a capital sigma, whose form depends on the
letters around it. A piece cut out of a field is lowered on its own, so its sigmas may take
another form than in the field: `ΑΣ` lowers to `ας`, but inside `ΑΣΑ` the sigma stays `σ`, and
the piece is not found (`sigma_piece_not_found`). A piece is found, by its keyed test and by a
free word searching its field, whenever each of its capital sigmas ends a word in the piece
exactly when it ends one in the field (`TextField.accepts_piece`); a piece without a capital
sigma always is.
-/
namespace ClipSearch.Text

/-! ## Lowering a piece in place -/

/-- Lowering splits after any prefix: the rest is lowered with the prefix passed. -/
theorem lowerFrom_append (before xs ys : List Char) :
    ∃ l, lowerFrom before (xs ++ ys) = l ++ lowerFrom (xs.reverse ++ before) ys := by
  induction xs generalizing before with
  | nil => exact ⟨[], rfl⟩
  | cons x xs ih =>
    obtain ⟨l, hl⟩ := ih (x :: before)
    rw [List.cons_append, lowerFrom, hl]
    simp only [List.reverse_cons, List.append_assoc, List.singleton_append]
    exact ⟨_, (List.append_assoc _ _ _).symm⟩

/-- A piece `cs` is lowered in place as it is lowered with the context `before₀` and nothing
after it, as long as each of its capital sigmas ends a word in both contexts alike. -/
theorem lowerFrom_append_of_agree {before₀ before after cs : List Char}
    (h : ∀ a b, cs = a ++ 'Σ' :: b →
      sigmaEndsWord (a.reverse ++ before₀) b = sigmaEndsWord (a.reverse ++ before) (b ++ after)) :
    lowerFrom before (cs ++ after) =
      lowerFrom before₀ cs ++ lowerFrom (cs.reverse ++ before) after := by
  induction cs generalizing before₀ before with
  | nil => rfl
  | cons c cs ih =>
    -- the first character lowers alike: only a sigma reads its context
    have hhead : sigmaEndsWord before (cs ++ after) = sigmaEndsWord before₀ cs ∨ c ≠ 'Σ' := by
      by_cases hc : c = 'Σ'
      · exact .inl (h [] cs (by rw [hc]; rfl)).symm
      · exact .inr hc
    have htail := @ih (c :: before₀) (c :: before) fun a b hab => by
      simpa using h (c :: a) b (by rw [hab]; rfl)
    rw [List.cons_append, lowerFrom, lowerFrom, htail]
    simp only [List.reverse_cons, List.append_assoc, List.singleton_append]
    rcases hhead with hs | hc
    · rw [hs]
    · simp [hc]

/-- Each capital sigma of the piece ends a word in the piece alone exactly when it ends one in
the text `pre ++ piece ++ suf` around it. -/
def SigmaAgrees (pre piece suf : List Char) : Prop :=
  ∀ a b, piece = a ++ 'Σ' :: b →
    sigmaEndsWord a.reverse b = sigmaEndsWord (a.reverse ++ pre.reverse) (b ++ suf)

/-- A piece whose sigmas agree with the text around it lowers to a piece of the lowered text. -/
theorem lower_infix_of_sigmaAgrees {pre piece suf : List Char} (h : SigmaAgrees pre piece suf) :
    lowerFrom [] piece <:+: lowerFrom [] (pre ++ piece ++ suf) := by
  obtain ⟨l, hl⟩ := lowerFrom_append [] pre (piece ++ suf)
  have hmid : lowerFrom pre.reverse (piece ++ suf) =
      lowerFrom [] piece ++ lowerFrom (piece.reverse ++ pre.reverse) suf :=
    lowerFrom_append_of_agree fun a b hab => by simpa using h a b hab
  rw [List.append_assoc, hl, List.append_nil, hmid]
  exact ⟨l, _, by rw [List.append_assoc]⟩

end ClipSearch.Text

namespace ClipSearch.Query

open ClipSearch.Catalog ClipSearch.Text

/-! ## Free words are keyed tests -/

/-- A free word holds of a clip exactly when the keyed test of a field it searches holds. -/
theorem FreeWord.accepts_make_iff (k : String) (s : Settings) (c : Clip) :
    (FreeWord.make k s).accepts c = true ↔
      (s.filePath = true ∧ (FieldTest.ofKey "path" k).accepts c = true) ∨
      (s.clipName = true ∧ (FieldTest.ofKey "clip" k).accepts c = true) ∨
      (s.songTitle = true ∧ (FieldTest.ofKey "song" k).accepts c = true) ∨
      (s.concertName = true ∧ (FieldTest.ofKey "concert" k).accepts c = true) ∨
      (s.liveType = true ∧ (FieldTest.ofKey "type" k).accepts c = true) ∨
      (s.brands = true ∧ (FieldTest.ofKey "brands" k).accepts c = true) ∨
      (s.lyrics = true ∧ (FieldTest.ofKey "lyrics" k).accepts c = true) ∨
      (s.remarks = true ∧ (FieldTest.ofKey "remarks" k).accepts c = true) ∨
      (s.performers = true ∧ (FieldTest.ofKey "performers" k).accepts c = true) := by
  simp only [FreeWord.accepts, FreeWord.make, Bool.or_eq_true, Bool.and_eq_true, or_assoc]
  exact Iff.rfl

/-! ## Pieces of a text field -/

def TextField.key : TextField → FieldKey
  | .filePath => .path | .clipName => .clip | .songTitle => .song
  | .concertName => .concert | .lyrics => .lyrics | .remarks => .remarks

def TextField.switch (f : TextField) (s : Settings) : Bool :=
  match f with
  | .filePath => s.filePath | .clipName => s.clipName | .songTitle => s.songTitle
  | .concertName => s.concertName | .lyrics => s.lyrics | .remarks => s.remarks

theorem FieldTest.accepts_ofKey_key (f : TextField) (v : String) (c : Clip) :
    (FieldTest.ofKey f.key.keyword v).accepts c = fieldHas (f.get c) (lower v) := by
  cases f <;> rfl

theorem FreeWord.accepts_of_fieldHas {f : TextField} {s : Settings} {k : String} {c : Clip}
    (hs : f.switch s = true) (h : fieldHas (f.get c) k = true) : FreeWord.accepts ⟨k, s⟩ c = true := by
  cases f <;> simp_all [FreeWord.accepts, TextField.switch, TextField.get]

/-- A field holding `hay` has every needle whose lowercase is a piece of the lowered `hay`. -/
theorem fieldHas_of_infix {v : Option String} {hay needle : String} (hv : v = some hay)
    (h : (lower needle).toList <:+: (lower hay).toList) : fieldHas v (lower needle) = true := by
  subst hv
  simp [fieldHas, containsLowered, occursIn_eq_true_iff.2 h]

/-- A piece of a text field finds its clip, by the field's keyed test and by a free word that
searches the field, when each of its capital sigmas ends a word in the piece exactly when it
ends one in the field. -/
theorem TextField.accepts_piece (f : TextField) {c : Clip} {hay piece : String}
    {pre suf : List Char} (hf : f.get c = some hay) (hsplit : hay.toList = pre ++ piece.toList ++ suf)
    (hsigma : SigmaAgrees pre piece.toList suf) :
    (FieldTest.ofKey f.key.keyword piece).accepts c = true ∧
      ∀ s : Settings, f.switch s = true → (FreeWord.make piece s).accepts c = true := by
  have hfound : fieldHas (f.get c) (lower piece) = true := by
    refine fieldHas_of_infix hf ?_
    rw [lower, lower, String.toList_ofList, String.toList_ofList, hsplit]
    exact lower_infix_of_sigmaAgrees hsigma
  exact ⟨(FieldTest.accepts_ofKey_key f piece c).trans hfound,
    fun s hs => FreeWord.accepts_of_fieldHas hs hfound⟩

/-- `ΔΟΣ`, cut from `ΟΔΟΣ Straße`, ends in a word-final sigma there too, and is found. -/
theorem TextField.accepts_piece_final_sigma :
    SigmaAgrees ['Ο'] "ΔΟΣ".toList " Straße".toList ∧
      (FieldTest.ofKey TextField.songTitle.key.keyword "ΔΟΣ").accepts
        { songTitle := some "ΟΔΟΣ Straße" } = true ∧
      ∀ s : Settings, TextField.songTitle.switch s = true →
        (FreeWord.make "ΔΟΣ" s).accepts { songTitle := some "ΟΔΟΣ Straße" } = true := by
  have hsigma : SigmaAgrees ['Ο'] "ΔΟΣ".toList " Straße".toList := by
    intro a b hab
    rw [show "ΔΟΣ".toList = ['Δ', 'Ο', 'Σ'] by decide] at hab
    obtain ⟨rfl, rfl⟩ : a = ['Δ', 'Ο'] ∧ b = [] := by
      rcases a with _ | ⟨x, _ | ⟨y, _ | ⟨z, a⟩⟩⟩ <;> simp at hab
      obtain ⟨rfl, rfl, rfl⟩ := hab
      exact ⟨rfl, rfl⟩
    decide +kernel
  exact ⟨hsigma, TextField.accepts_piece .songTitle rfl (by decide) hsigma⟩

/-- A piece can lose its clip: `ΑΣ` lowers to `ας`, which `ασα`, the lowercase of `ΑΣΑ`, does
not hold. -/
theorem sigma_piece_not_found :
    "ΑΣ".toList <:+: "ΑΣΑ".toList ∧
      (FieldTest.ofKey "song" "ΑΣ").accepts { songTitle := some "ΑΣΑ" } = false := by
  refine ⟨⟨[], ['Α'], by decide⟩, ?_⟩
  decide +kernel

end ClipSearch.Query
