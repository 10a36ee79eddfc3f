/-!
Blank characters and trimming. A character is blank when it has the Unicode White_Space
property; the 25 such code points are listed here. Trimming removes blank characters from
one or both ends of a text and keeps everything between.
-/
namespace ClipSearch.Text

/-- A character is blank when it has the Unicode White_Space property. -/
def isBlank (c : Char) : Bool :=
  let n := c.toNat
  (9 ≤ n && n ≤ 13) || n == 0x20 || n == 0x85 || n == 0xA0 || n == 0x1680 ||
    (0x2000 ≤ n && n ≤ 0x200A) || n == 0x2028 || n == 0x2029 || n == 0x202F ||
    n == 0x205F || n == 0x3000

/-- Every character that core calls whitespace is blank here too. -/
theorem isBlank_of_isWhitespace (c : Char) (h : c.isWhitespace = true) : isBlank c = true := by
  simp only [Char.isWhitespace, Bool.or_eq_true, decide_eq_true_eq] at h
  simp only [isBlank, Bool.or_eq_true, Bool.and_eq_true, decide_eq_true_eq, beq_iff_eq]
  rcases h with ((h | h) | h) | h <;> subst h <;> decide

def dropBlankFront (cs : List Char) : List Char := cs.dropWhile isBlank

def dropBlankBack (cs : List Char) : List Char := (cs.reverse.dropWhile isBlank).reverse

def trimStart (s : String) : String := String.ofList (dropBlankFront s.toList)

def trimEnd (s : String) : String := String.ofList (dropBlankBack s.toList)

def trim (s : String) : String := String.ofList (dropBlankBack (dropBlankFront s.toList))

/-- The first character of a text that is not blank, if any. -/
def firstNonBlank (s : String) : Option Char := (s.find fun c => !isBlank c).get?

/-- A text is blank when nothing but blank characters is in it. -/
def isBlankText (s : String) : Bool := (firstNonBlank s).isNone

theorem trim_toList (s : String) :
    (trim s).toList = dropBlankBack (dropBlankFront s.toList) := by
  simp [trim]

end ClipSearch.Text
