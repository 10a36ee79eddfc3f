import ClipSearch.Text.Blank
/-!
Splitting query text into tokens.

Only the ASCII space separates tokens. At each position the first shape that fits gives the
token, delimiters included:

1. keyed group `?key:(...)` or `-?key:(...)`, up to the first `)`;
2. keyed quoted `?key:"..."`, up to the next `"`;
3. keyed bare `?key:value`, up to the next space, with a non-empty value;
4. group `(...)` or `-(...)`, up to the first `)`;
5. negated quoted `-"..."`;
6. negated bare `-value`, with a non-empty value;
7. quoted `"..."`;
8. anything else up to the next space.

A key is a non-empty run of ASCII letters, digits and `_`. A quoted or parenthesized span
fails when a line feed comes before its closing character or it never closes; a later shape
is then tried. A token made only of blank characters is dropped.

Each step takes at least one character, so `tokens` ends by the length of what is left.
-/
namespace ClipSearch.Query

open ClipSearch.Text

/-- Characters allowed in a key. -/
def isKeyChar (c : Char) : Bool := c.isAlphanum || c == '_'

/-- The length of `?key:` or `-?key:` at the front, if present. -/
def keyPrefix (cs : List Char) : Option Nat :=
  let start : Option Nat := match cs with
    | '-' :: '?' :: _ => some 2
    | '?' :: _ => some 1
    | _ => none
  start.bind fun k =>
    let key := (cs.drop k).takeWhile isKeyChar
    if key.isEmpty then none
    else match cs.drop (k + key.length) with
      | ':' :: _ => some (k + key.length + 1)
      | _ => none

/-- The length through the first `close`, if it comes before any line feed. -/
def spanTo (close : Char) : List Char → Option Nat
  | [] => none
  | c :: cs => if c == close then some 1 else if c == '\n' then none else (spanTo close cs).map (· + 1)

/-- A span opening with `opening` at position `start` and closed by the first `closing`: its
length from the front through the closing character. -/
def closedSpan (cs : List Char) (start : Nat) (opening closing : Char) : Option Nat :=
  match cs.drop start with
  | c :: body => if c == opening then (spanTo closing body).map (start + 1 + ·) else none
  | [] => none

def bareLength (cs : List Char) : Nat := (cs.takeWhile (· != ' ')).length

/-- A run of at least one non-space character after a prefix of length `k`. -/
def bareAfter (cs : List Char) (k : Nat) : Option Nat :=
  match bareLength (cs.drop k) with
  | 0 => none
  | n => some (k + n)

/-- The length of the token at the front of `cs`, by the first shape that fits. -/
def tokenLength (cs : List Char) : Nat :=
  let negated := match cs with
    | '-' :: _ => true
    | _ => false
  let shapes : List (Option Nat) :=
    [(keyPrefix cs).bind (fun k => closedSpan cs k '(' ')'),
     (keyPrefix cs).bind (fun k => closedSpan cs k '"' '"'),
     (keyPrefix cs).bind (fun k => bareAfter cs k),
     closedSpan cs (if negated then 1 else 0) '(' ')',
     if negated then closedSpan cs 1 '"' '"' else none,
     if negated then bareAfter cs 1 else none,
     closedSpan cs 0 '"' '"']
  match shapes.findSome? id with
  | some n => n
  | none => bareLength cs

/-- The tokens of query text, as character lists. -/
def tokenChars (cs : List Char) : List (List Char) :=
  match cs with
  | [] => []
  | c :: rest =>
    if c == ' ' then tokenChars rest
    else
      let n := max 1 (tokenLength (c :: rest))
      let tok := (c :: rest).take n
      let more := tokenChars ((c :: rest).drop n)
      if tok.all isBlank then more else tok :: more
termination_by cs.length
decreasing_by
  all_goals simp only [List.length_cons, List.length_drop]
  all_goals omega

def tokens (s : String) : List String := (tokenChars s.toList).map String.ofList

theorem tokenChars_nil : tokenChars [] = [] := by simp [tokenChars]

end ClipSearch.Query
