import ClipSearch.Proofs.FormTokens
/-!
# Labels under case-blind containment

The search form writes chosen brands and live types by their display labels, and the query
looks for them, case-blind, in the clip's brand text and live type label. A label is found
exactly where its brand or type is (`containsLowered_display_label`,
`containsLowered_liveType_label`): lowercasing leaves the labels apart, and every lowercased
brand label has a character that lowercasing no other label, nor the separator `", "`, gives.
-/
namespace ClipSearch.Text

/-- Containment is the infix relation on characters. -/
theorem occursIn_eq_true_iff {needle hay : List Char} : occursIn needle hay = true ↔ needle <:+: hay := by
  induction hay with
  | nil => cases needle <;> simp [occursIn]
  | cons h hs ih =>
    rw [occursIn, Bool.or_eq_true, ih, List.isPrefixOf_iff_prefix, List.infix_cons_iff]

/-- Without a capital sigma, lowercasing works character by character. -/
theorem lowerFrom_of_sigma_free {l : List Char} (h : 'Σ' ∉ l) (before : List Char) :
    lowerFrom before l = l.flatMap lowerChar := by
  induction l generalizing before with
  | nil => rfl
  | cons c l ih =>
    simp only [List.mem_cons, not_or] at h
    have hc : c ≠ 'Σ' := fun e => h.1 e.symm
    simp [lowerFrom, hc, ih h.2]

theorem lower_toList_of_sigma_free {s : String} (h : 'Σ' ∉ s.toList) :
    (lower s).toList = s.toList.flatMap lowerChar := by
  rw [lower, String.toList_ofList, lowerFrom_of_sigma_free h]

theorem mem_intercalate_toList {x : Char} {sep : String} {ts : List String}
    (h : x ∈ (sep.intercalate ts).toList) : x ∈ sep.toList ∨ ∃ t ∈ ts, x ∈ t.toList := by
  induction ts with
  | nil => simp at h
  | cons t ts ih =>
    cases ts with
    | nil => exact .inr ⟨t, List.mem_cons_self, by simpa using h⟩
    | cons u us =>
      rw [String.intercalate_cons_cons] at h
      simp only [String.toList_append, List.mem_append] at h
      rcases h with (h | h) | h
      · exact .inr ⟨t, List.mem_cons_self, h⟩
      · exact .inl h
      · obtain h | ⟨t', ht', hx⟩ := ih h
        · exact .inl h
        · exact .inr ⟨t', List.mem_cons_of_mem _ ht', hx⟩

theorem infix_intercalate_toList {sep t : String} {ts : List String} (h : t ∈ ts) :
    t.toList <:+: (sep.intercalate ts).toList := by
  induction ts with
  | nil => simp at h
  | cons u ts ih =>
    cases ts with
    | nil => simp only [List.mem_singleton] at h; subst h; simp
    | cons v vs =>
      rw [String.intercalate_cons_cons]
      rcases List.mem_cons.1 h with rfl | h
      · exact ⟨[], (sep ++ sep.intercalate (v :: vs)).toList, by simp⟩
      · exact (ih h).trans ⟨(u ++ sep).toList, [], by simp⟩

theorem infix_lower_of_sigma_free {s t : String} (hs : 'Σ' ∉ s.toList) (ht : 'Σ' ∉ t.toList)
    (h : s.toList <:+: t.toList) : (lower s).toList <:+: (lower t).toList := by
  obtain ⟨a, b, hab⟩ := h
  rw [lower_toList_of_sigma_free hs, lower_toList_of_sigma_free ht, ← hab]
  exact ⟨a.flatMap lowerChar, b.flatMap lowerChar, by simp⟩

end ClipSearch.Text

namespace ClipSearch.Catalog

open ClipSearch.Text

theorem Brand.mem_all (b : Brand) : b ∈ Brand.all := by
  cases b <;> decide

/-- A character of each lowercased brand label that lowercasing no other label gives. -/
def Brand.mark : Brand → Char
  | .imas => '7' | .ds => 'ィ' | .cinderella => 'レ' | .million => 'ミ' | .sidem => 'i'
  | .shiny => 'ャ' | .valiv => 'ヴ' | .gakuen => '学' | .goudou => '合' | .other => 'そ'

theorem Brand.mark_mem_lower (b : Brand) : b.mark ∈ b.label.toList.flatMap lowerChar := by
  cases b <;> decide +kernel

theorem Brand.eq_of_mark_mem (b b' : Brand) {ch : Char} (hch : ch ∈ b'.label.toList)
    (h : b.mark ∈ lowerChar ch) : b' = b := by
  -- decided on `Bool`: the kernel evaluates `List.all` where the `Prop` form recurses too deep
  have hall : ((b'.label.toList.all fun ch => !(lowerChar ch).contains b.mark) || b' == b) = true := by
    cases b <;> cases b' <;> decide +kernel
  simp only [Bool.or_eq_true, List.all_eq_true, Bool.not_eq_true', beq_iff_eq] at hall
  exact hall.resolve_left fun hno => by simpa [h] using hno ch hch

theorem Brand.mark_not_mem_sep (b : Brand) {ch : Char} (hch : ch ∈ ", ".toList) :
    b.mark ∉ lowerChar ch := by
  have hall : (", ".toList.all fun ch => !(lowerChar ch).contains b.mark) = true := by
    cases b <;> decide +kernel
  simp only [List.all_eq_true, Bool.not_eq_true'] at hall
  simpa using hall ch hch

theorem Brand.sigma_not_mem_label (b : Brand) : 'Σ' ∉ b.label.toList := by
  cases b <;> decide +kernel

theorem BrandSet.sigma_not_mem_display (s : BrandSet) : 'Σ' ∉ s.display.toList := by
  intro h
  rcases mem_intercalate_toList h with h | ⟨t, ht, hx⟩
  · exact absurd h (by decide)
  · obtain ⟨b, -, rfl⟩ := List.mem_map.1 ht
    exact b.sigma_not_mem_label hx

/-- A brand's label is found, case-blind, in a set's display text exactly when the set has the
brand. -/
theorem containsLowered_display_label (s : BrandSet) (b : Brand) :
    containsLowered s.display (lower b.label) = s.has b := by
  have hmark : b.mark ∈ (lower b.label).toList := by
    rw [lower_toList_of_sigma_free b.sigma_not_mem_label]
    exact b.mark_mem_lower
  have hne : (lower b.label).isEmpty = false := by
    cases h : (lower b.label).isEmpty
    · rfl
    · simp [String.isEmpty_iff] at h
      simp [h] at hmark
  rw [containsLowered, hne, Bool.false_or]
  cases hb : s.has b
  · -- the mark of `b` would have to come from the label of `b` itself
    rw [Bool.eq_false_iff]
    intro hocc
    have hin := (occursIn_eq_true_iff.1 hocc).subset hmark
    rw [lower_toList_of_sigma_free s.sigma_not_mem_display, List.mem_flatMap] at hin
    obtain ⟨ch, hch, hmk⟩ := hin
    rcases mem_intercalate_toList hch with h | ⟨t, ht, hx⟩
    · exact b.mark_not_mem_sep h hmk
    · obtain ⟨b', hb', rfl⟩ := List.mem_map.1 ht
      obtain rfl := Brand.eq_of_mark_mem b b' hx hmk
      simp [BrandSet.members, hb] at hb'
  · have hmem : b.label ∈ s.labels := List.mem_map.2 ⟨b, by simp [BrandSet.members, hb, b.mem_all], rfl⟩
    exact occursIn_eq_true_iff.2 (infix_lower_of_sigma_free b.sigma_not_mem_label
      s.sigma_not_mem_display (infix_intercalate_toList hmem))

/-- A live type's label is found, case-blind, in the label of a clip's live type exactly when
the two types are the same. -/
theorem containsLowered_liveType_label (t u : LiveType) :
    containsLowered t.label (lower u.label) = decide (t = u) := by
  cases t <;> cases u <;> decide +kernel

end ClipSearch.Catalog
