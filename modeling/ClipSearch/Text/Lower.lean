import ClipSearch.Text.CaseTable
/-!
Full Unicode lowercasing and the case-blind containment test built on it.

Each character maps to its Unicode lowercase (U+0130 becomes `i` followed by U+0307), except a
capital sigma: it becomes the final form `ς` when it ends a word, that is when a cased letter
comes before it (skipping case-ignorable characters) and none comes after it in the same way.
The context is read in the text being lowered, not in its lowered form.
-/
namespace ClipSearch.Text

/-- Whether a code point lies in one of the ranges. -/
def inRanges (ranges : List (Nat × Nat)) (n : Nat) : Bool :=
  ranges.any fun r => r.1 ≤ n && n ≤ r.2

def isCased (c : Char) : Bool := inRanges casedRanges c.toNat

def isCaseIgnorable (c : Char) : Bool := inRanges caseIgnorableRanges c.toNat

def CaseRun.holds (r : CaseRun) (n : Nat) : Bool :=
  r.first ≤ n && n ≤ r.last && (n - r.first) % r.step == 0

/-- The lowercase of one character, as the characters it becomes. -/
def lowerChar (c : Char) : List Char :=
  let n := c.toNat
  if n < 0x80 then [c.toLower]
  else if n == 0x130 then ['i', Char.ofNat 0x307]
  else
    match lowerRuns.find? (·.holds n) with
    | some r => [Char.ofNat (Int.toNat (n + r.shift))]
    | none => [c]

/-- Case-ignorable characters are skipped; then a cased character must follow. -/
def casedAfterIgnorable : List Char → Bool
  | [] => false
  | c :: cs => if isCaseIgnorable c then casedAfterIgnorable cs else isCased c

/-- A capital sigma with `before` (nearest first) and `after` around it ends a word. -/
def sigmaEndsWord (before after : List Char) : Bool :=
  casedAfterIgnorable before && !casedAfterIgnorable after

/-- Lowercases `cs`, where `before` holds the characters already passed, nearest first. -/
def lowerFrom (before : List Char) : List Char → List Char
  | [] => []
  | c :: cs =>
    let here :=
      if c == 'Σ' then [if sigmaEndsWord before cs then 'ς' else 'σ'] else lowerChar c
    here ++ lowerFrom (c :: before) cs

def lower (s : String) : String := String.ofList (lowerFrom [] s.toList)

/-- Whether `needle` occurs in `hay` as a contiguous block. -/
def occursIn (needle hay : List Char) : Bool :=
  match hay with
  | [] => needle.isEmpty
  | h :: hs => needle.isPrefixOf (h :: hs) || occursIn needle hs

/-- Case-blind containment: an empty needle is found everywhere; otherwise the lowercase
of `hay` must contain `needle`, which the caller has already lowercased. -/
def containsLowered (hay needle : String) : Bool :=
  needle.isEmpty || occursIn needle.toList (lower hay).toList

@[simp] theorem lowerFrom_nil (before : List Char) : lowerFrom before [] = [] := rfl

theorem occursIn_nil (hay : List Char) : occursIn [] hay = true := by
  cases hay <;> simp [occursIn]

end ClipSearch.Text
