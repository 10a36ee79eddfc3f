import Mathlib
import ClipSearch.Cli.Run
/-!
# Every way of searching a catalog gives the same clips

The sequential filter skips testing when the predicate is the empty `and`; that is sound because
the empty `and` holds of every clip (`accepts_of_isMatchAll`), so the filter returns exactly the
clips the predicate holds of (`filterClips_eq_select`). Filtering distributes over a cut of the
catalog into contiguous chunks, so the parallel filter gives the same clips in the same order
however the catalog is cut (`parFilterClips_eq_select`).

Main statement: the sequential filter, the parallel one over every cut, the count and the search
of a query agree with the clips the predicate holds of, in catalog order
(`evaluation_paths_agree`). The search command therefore prints the same clips below and above
its parallel threshold (`searchMatches_eq_select`).
-/
namespace ClipSearch.Query

open ClipSearch.Catalog

theorem isMatchAll_iff {p : Predicate} : p.isMatchAll = true ↔ p = .matchAll := by
  unfold Predicate.isMatchAll
  split <;> simp_all [Predicate.matchAll]

theorem accepts_of_isMatchAll {p : Predicate} (h : p.isMatchAll = true) (c : Clip) :
    p.accepts c = true := by
  rw [isMatchAll_iff.1 h, Predicate.matchAll, Predicate.accepts]
  simp

variable (p : Predicate) (clips : List Clip)

/-- The shortcut changes nothing: the sequential filter keeps the clips the predicate holds of. -/
theorem filterClips_eq_select : filterClips p clips = select p clips := by
  unfold filterClips
  split
  · next h => exact (List.filter_eq_self.2 fun c _ => accepts_of_isMatchAll h c).symm
  · rfl

/-- However the catalog is cut into contiguous chunks, the parallel filter keeps the clips the
predicate holds of, in catalog order. -/
theorem parFilterClips_eq_select {chunks : List (List Clip)} (h : chunks.flatten = clips) :
    parFilterClips p chunks = select p clips := by
  rw [← h, parFilterClips, select, List.filter_flatten, List.flatMap_def]
  rfl

/-- The sequential filter, its shortcut included, the parallel filter over every cut of the
catalog into contiguous chunks, the count of matches and the search of a query all agree with
the clips the predicate holds of, in catalog order. -/
theorem evaluation_paths_agree :
    filterClips p clips = clips.filter (p.accepts ·) ∧
      (∀ chunks : List (List Clip), chunks.flatten = clips →
        parFilterClips p chunks = clips.filter (p.accepts ·)) ∧
      countSelected p clips = (clips.filter (p.accepts ·)).length ∧
      ∀ (query : String) (settings : Option Settings),
        searchClips clips query settings =
          filterClips (compile query (settings.getD Settings.all)) clips :=
  ⟨filterClips_eq_select p clips, fun _ h => parFilterClips_eq_select p clips h, rfl,
    fun _ _ => rfl⟩

/-- Three clips cut into two chunks, searched for a song. -/
theorem evaluation_paths_agree_two_chunks :
    [[({ id := 1, songTitle := some "Shine" } : Clip)],
        [{ id := 2, songTitle := some "Smile" }, { id := 3, songTitle := some "Star" }]].flatten =
      [{ id := 1, songTitle := some "Shine" }, { id := 2, songTitle := some "Smile" },
        { id := 3, songTitle := some "Star" }] ∧
    parFilterClips (compile "?song:Smile")
        [[{ id := 1, songTitle := some "Shine" }],
          [{ id := 2, songTitle := some "Smile" }, { id := 3, songTitle := some "Star" }]] =
      [({ id := 1, songTitle := some "Shine" } : Clip), { id := 2, songTitle := some "Smile" },
        { id := 3, songTitle := some "Star" }].filter ((compile "?song:Smile").accepts ·) :=
  ⟨rfl, (evaluation_paths_agree (compile "?song:Smile") _).2.1 _ rfl⟩

/-- The search command prints the clips the predicate holds of, at every catalog size. -/
theorem searchMatches_eq_select : Cli.searchMatches p clips = select p clips := by
  unfold Cli.searchMatches
  split
  · exact parFilterClips_eq_select p clips List.flatten_singleton
  · exact filterClips_eq_select p clips

end ClipSearch.Query
