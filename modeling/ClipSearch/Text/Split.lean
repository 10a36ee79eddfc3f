/-!
Splitting text at a separator: at its first occurrence (`splitFirst`), or at every occurrence
from left to right without overlaps (`splitOnSep`), keeping empty pieces.
-/
namespace ClipSearch.Text

/-- Splits a text at its first occurrence of a character. -/
def splitFirst (c : Char) (s : String) : Option (String × String) :=
  let cs := s.toList
  if cs.contains c then
    some (String.ofList (cs.takeWhile (· != c)), String.ofList ((cs.dropWhile (· != c)).drop 1))
  else none

/-- Splits a character list at every occurrence of a non-empty separator, left to right; an
empty separator leaves the list whole. -/
def splitOnSep (sep : List Char) (cs : List Char) : List (List Char) :=
  match sep with
  | [] => [cs]
  | s :: ss => go (s :: ss) (by simp) cs []
where
  /-- `acc` holds the characters of the current piece, most recent first. -/
  go (sep : List Char) (nonempty : 0 < sep.length) (cs : List Char) (acc : List Char) :
      List (List Char) :=
    match cs with
    | [] => [acc.reverse]
    | c :: rest =>
      if sep.isPrefixOf (c :: rest) then
        acc.reverse :: go sep nonempty ((c :: rest).drop sep.length) []
      else go sep nonempty rest (c :: acc)
  termination_by cs.length
  decreasing_by
    all_goals simp only [List.length_drop, List.length_cons]
    all_goals omega

def splitText (sep s : String) : List String :=
  (splitOnSep sep.toList s.toList).map String.ofList

end ClipSearch.Text
