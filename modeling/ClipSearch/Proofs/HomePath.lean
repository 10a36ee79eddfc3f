import Mathlib
import ClipSearch.Cli.Run
/-!
# The home directory written as `~`

`withTilde home path` writes `~` for the home directory at the start of a path. It tests the home
directory as a prefix of the path's text, not as a run of whole path components. A path that
starts with the home directory's text is written `~` and the rest (`withTilde_append`), and any
other path, or any path when the home directory is empty, is left as it is
(`withTilde_of_not_startsWith`). So where every way the path continues the home directory's text
starts a new component, the abbreviation is exactly the one at a component boundary
(`withTilde_at_component_boundary`); a sibling directory whose name extends the home
directory's name is abbreviated in the middle of that name (`withTilde_sibling_directory`).
-/
namespace ClipSearch.Cli

variable {home path : String}

/-- A path that starts with the home directory's text is written `~` and the rest. -/
theorem withTilde_append (hne : home ≠ "") (rest : String) :
    withTilde home (home ++ rest) = "~" ++ rest := by
  have hstart : (home ++ rest).startsWith home = true := by
    rw [String.startsWith_string_iff, String.toList_append]
    exact List.prefix_append _ _
  have hdrop : (home ++ rest).toList.drop home.length = rest.toList := by
    rw [String.toList_append, ← String.length_toList, List.drop_left]
  unfold withTilde
  rw [if_pos (by simp [hne, hstart]), hdrop, String.ofList_toList]

/-- A path that does not start with the home directory's text is left as it is. -/
theorem withTilde_of_not_startsWith (h : path.startsWith home = false) :
    withTilde home path = path := by
  unfold withTilde
  rw [if_neg (by simp [h])]

theorem withTilde_empty (path : String) : withTilde "" path = path := by
  unfold withTilde
  rw [if_neg (by simp)]

/-- A path is left as it is, or it continues the home directory's text and is written `~` and
the rest. -/
theorem withTilde_cases (home path : String) :
    withTilde home path = path ∨
      ∃ rest, path = home ++ rest ∧ withTilde home path = "~" ++ rest := by
  by_cases hne : home = ""
  · exact .inl (hne ▸ withTilde_empty path)
  cases hstart : path.startsWith home with
  | false => exact .inl (withTilde_of_not_startsWith hstart)
  | true =>
    obtain ⟨rest, hrest⟩ := String.startsWith_string_iff.1 hstart
    have hpath : path = home ++ String.ofList rest := by
      rw [← String.toList_inj, String.toList_append, String.toList_ofList, hrest]
    exact .inr ⟨String.ofList rest, hpath, hpath ▸ withTilde_append hne _⟩

/-- Where every way the path continues the home directory's text is empty or starts a new
component, the path is left as it is or written `~` and a rest that is empty or starts with
`/`, and it is written `~` and the rest exactly when the rest is empty or starts with `/`. -/
theorem withTilde_at_component_boundary (hne : home ≠ "")
    (hboundary : ∀ rest, path = home ++ rest → rest = "" ∨ rest.startsWith "/") :
    (withTilde home path = path ∨
        ∃ rest, path = home ++ rest ∧ (rest = "" ∨ rest.startsWith "/") ∧
          withTilde home path = "~" ++ rest) ∧
      ∀ rest, path = home ++ rest →
        (withTilde home path = "~" ++ rest ↔ (rest = "" ∨ rest.startsWith "/")) := by
  refine ⟨?_, fun rest hpath => ⟨fun _ => hboundary rest hpath, fun _ => ?_⟩⟩
  · rcases withTilde_cases home path with hsame | ⟨rest, hpath, hwrite⟩
    · exact .inl hsame
    · exact .inr ⟨rest, hpath, hboundary rest hpath, hwrite⟩
  · rw [hpath]
    exact withTilde_append hne rest

/-- A file under the home directory is written from `~`. -/
theorem withTilde_at_component_boundary_videos :
    "/Users/testuser" ≠ "" ∧
      (∀ rest, "/Users/testuser/Videos/live.mp4" = "/Users/testuser" ++ rest →
        rest = "" ∨ rest.startsWith "/") ∧
      withTilde "/Users/testuser" "/Users/testuser/Videos/live.mp4" = "~" ++ "/Videos/live.mp4" := by
  have hne : "/Users/testuser" ≠ "" := by decide
  have hsplit : "/Users/testuser/Videos/live.mp4" = "/Users/testuser" ++ "/Videos/live.mp4" := by
    decide
  have hboundary : ∀ rest, "/Users/testuser/Videos/live.mp4" = "/Users/testuser" ++ rest →
      rest = "" ∨ rest.startsWith "/" := by
    intro rest hpath
    have hrest : rest = "/Videos/live.mp4" :=
      (String.append_right_inj _).1 (hpath.symm.trans hsplit)
    subst hrest
    exact .inr (by simp)
  refine ⟨hne, hboundary, ?_⟩
  exact ((withTilde_at_component_boundary hne hboundary).2 "/Videos/live.mp4" hsplit).2
    (.inr (by simp))

/-- A sibling directory whose name extends the home directory's name is abbreviated in the middle
of that name: the rest after `~` neither is empty nor starts with `/`. -/
theorem withTilde_sibling_directory :
    "/Users/testuser2/live.mp4" = "/Users/testuser" ++ "2/live.mp4" ∧
      withTilde "/Users/testuser" "/Users/testuser2/live.mp4" = "~" ++ "2/live.mp4" ∧
      ¬ ("2/live.mp4" = "" ∨ "2/live.mp4".startsWith "/") := by
  have hpath : "/Users/testuser2/live.mp4" = "/Users/testuser" ++ "2/live.mp4" := by decide
  refine ⟨hpath, ?_, by simp⟩
  rw [hpath]
  exact withTilde_append (by decide) _

end ClipSearch.Cli
