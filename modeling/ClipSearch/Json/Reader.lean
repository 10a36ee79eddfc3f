import ClipSearch.Json.Value
import ClipSearch.Json.Error
import ClipSearch.Decimal.Binary
/-!
Reading JSON text, step by step, with positions.

A `Cursor` holds the text still to read, a bound on the steps any loop may take (more than the
characters of the whole text, since every step of a loop reads one), the number of bytes read,
the current line and where it started, and how many levels of nesting are still allowed (127 in
all). A `Scan` reads from a
cursor and may fail with a `Fault`; after a failure the cursor stays where the failure was
found, so that a problem of a value that is not positioned yet can take the position the reading
has reached (`Scan.settle`).

Two positions are used for faults: `here` is the column after the last byte read; `ahead` is
one byte further, the column of the byte being looked at (line feeds start a new line).

The steps are those of a JSON reader: blanks (space, tab, line feed, carriage return), literal
words, numbers (an integer that fits 64 bits stays an integer; otherwise the significand, kept
while it fits 64 bits, is scaled by a power of ten in double arithmetic), strings with their
escapes, arrays and objects with their separators, and skipping a value that is not wanted.
-/
namespace ClipSearch.Json

open ClipSearch.Decimal

/-- Where reading stands. -/
structure Cursor where
  rest : List Char
  budget : Nat := 0
  index : Nat := 0
  line : Nat := 1
  lineStart : Nat := 0
  depth : Nat := 128
  deriving Repr

/-- A reading step: it changes the cursor and may fail. -/
abbrev Scan := ExceptT Fault (StateM Cursor)

namespace Scan

def peek : Scan (Option Char) := do return (← get).rest.head?

def eat : Scan Unit := modify fun c =>
  match c.rest with
  | [] => c
  | ch :: rest =>
    let index := c.index + ch.utf8Size
    if ch == '\n' then { c with rest, index, line := c.line + 1, lineStart := index }
    else { c with rest, index }

def next : Scan (Option Char) := do
  let c ← peek
  eat
  return c

/-- The position after the last byte read. -/
def here : Scan (Nat × Nat) := do
  let c ← get
  return (c.line, c.index - c.lineStart)

/-- The position of the byte being looked at. -/
def ahead : Scan (Nat × Nat) := do
  let c ← get
  match c.rest with
  | [] => return (c.line, c.index - c.lineStart)
  | '\n' :: _ => return (c.line + 1, 0)
  | _ :: _ => return (c.line, c.index + 1 - c.lineStart)

/-- Fails with a fault of the text at `here`. -/
def failHere {α : Type} (s : Grammar) : Scan α := do throw ⟨.grammar s, some (← here)⟩

/-- Fails with a fault of the text at `ahead`. -/
def failAhead {α : Type} (s : Grammar) : Scan α := do throw ⟨.grammar s, some (← ahead)⟩

/-- Fails with a problem that has no position yet. -/
def loose {α : Type} (p : Problem) : Scan α := throw ⟨p, none⟩

/-- Runs a step; a problem without a position gets the position reached (`here`). -/
def settle {α : Type} (act : Scan α) : Scan α :=
  tryCatch act fun f => do
    match f.position with
    | some _ => throw f
    | none => throw { f with position := some (← here) }

/-- Runs `body` and then `close`; `close` runs even when `body` fails, and the first failure
is the one reported. -/
def closing {α : Type} (body : Scan α) (close : Scan Unit) : Scan α := do
  let r ← tryCatch body fun f => do
    tryCatch close fun _ => pure ()
    throw f
  close
  return r

/-- Enters one level of nesting, failing when the limit is reached. -/
def enter : Scan Unit := do
  let c ← get
  if c.depth ≤ 1 then failAhead .recursionLimit
  set { c with depth := c.depth - 1 }

def leave : Scan Unit := modify fun c => { c with depth := c.depth + 1 }

/-- Skips blanks and returns the character after them. -/
def skipBlank : Scan (Option Char) := do
  let c ← get
  let blanks := c.rest.takeWhile fun ch => ch == ' ' || ch == '\n' || ch == '\t' || ch == '\r'
  for _ in blanks do eat
  peek

/-- Reads the rest of a literal word, whose first letter is already read. -/
def word (rest : List Char) : Scan Unit := do
  for ch in rest do
    match ← peek with
    | none => failHere .eofValue
    | some c => if c != ch then failAhead .expectedIdent else eat

/-- The digits at the front, as numbers, not yet read. -/
def digitsAhead : Scan (List Nat) := do
  return ((← get).rest.takeWhile Char.isDigit).map fun c => c.toNat - 48

/-- Adds digits to `acc` while the value stays at most `limit`; the value and how many
digits were taken. -/
def absorb (limit acc : Nat) : List Nat → Nat × Nat
  | [] => (acc, 0)
  | d :: ds =>
    if acc * 10 + d > limit then (acc, 0)
    else
      let (v, n) := absorb limit (acc * 10 + d) ds
      (v, n + 1)

def u64Max : Nat := Nat.pow 2 64 - 1

def i32Max : Nat := Nat.pow 2 31 - 1

/-- Clamps an exponent to the signed 32-bit range. -/
def clampExponent (e : Int) : Int := max (-(i32Max : Int) - 1) (min e i32Max)

def eatMany (n : Nat) : Scan Unit := do
  for _ in List.range n do eat

/-- Scales a significand by a power of ten in double arithmetic: one multiplication or
division by an exact power of ten, stepping by `1e308` below that range. -/
def scale (positive : Bool) (significand : Nat) (exponent : Int) : Scan Float := do
  let pow (e : Nat) : Float := Binary.ofDecimal false 1 e
  let rec go (fuel : Nat) (f : Float) (e : Int) : Scan Float :=
    match fuel with
    | 0 => pure f
    | fuel + 1 =>
      if e.natAbs ≤ 308 then
        if e ≥ 0 then
          let g := f * pow e.natAbs
          if Binary.isSpecial g then failHere .numberOutOfRange else pure g
        else pure (f / pow e.natAbs)
      else if f == 0.0 then pure f
      else if e ≥ 0 then failHere .numberOutOfRange
      else go fuel (f / pow 308) (e + 308)
  let f ← go 8000000 (Binary.ofDecimal false significand 0) exponent
  return if positive then f else -f

/-- Reads an exponent after `e`; the significand so far and the exponent before it given. -/
def exponentPart (positive : Bool) (significand : Nat) (start : Int) : Scan Float := do
  eat
  let positiveExp ← match ← peek with
    | some '+' => do eat; pure true
    | some '-' => do eat; pure false
    | _ => pure true
  match ← peek with
  | none => failHere .eofValue
  | some c =>
    if !c.isDigit then failAhead .invalidNumber
    eat
    let ds ← digitsAhead
    let (exp, taken) := absorb i32Max (c.toNat - 48) ds
    if taken < ds.length then
      -- the exponent overflows: read up to and including the digit that overflows
      eatMany (taken + 1)
      if significand != 0 && positiveExp then failHere .numberOutOfRange
      eatMany (ds.length - taken - 1)
      return if positive then 0.0 else -0.0
    eatMany taken
    let final := clampExponent (if positiveExp then start + exp else start - exp)
    scale positive significand final

/-- Reads a fraction after `.`; the significand so far and the exponent before it given. -/
def fractionPart (positive : Bool) (significand : Nat) (start : Int) : Scan Float := do
  eat
  let ds ← digitsAhead
  let (sig, taken) := absorb u64Max significand ds
  eatMany taken
  if taken < ds.length then
    -- further digits do not fit: they are skipped
    eatMany (ds.length - taken)
  else if taken == 0 then
    match ← peek with
    | some _ => failAhead .invalidNumber
    | none => failAhead .eofValue
  let exponent := start - taken
  match ← peek with
  | some 'e' | some 'E' => exponentPart positive sig exponent
  | _ => scale positive sig exponent

/-- Finishes a number whose integer digits gave `significand`. -/
def numberTail (positive : Bool) (significand : Nat) : Scan Number := do
  match ← peek with
  | some '.' => return .float (← fractionPart positive significand 0)
  | some 'e' | some 'E' => return .float (← exponentPart positive significand 0)
  | _ =>
    if positive then return .nat significand
    else if significand == 0 then return .float (-0.0)
    else if significand ≤ Nat.pow 2 63 then return .neg (-(significand : Int))
    else return .float (-(Binary.ofDecimal false significand 0))

/-- Reads a number after its sign. -/
def integer (positive : Bool) : Scan Number := do
  match ← peek with
  | none => failHere .eofValue
  | some '0' =>
    eat
    match ← peek with
    | some c => if c.isDigit then failAhead .invalidNumber else numberTail positive 0
    | none => numberTail positive 0
  | some c =>
    if !c.isDigit then failAhead .invalidNumber
    eat
    let ds ← digitsAhead
    let (sig, taken) := absorb u64Max (c.toNat - 48) ds
    eatMany taken
    if taken < ds.length then
      -- too long for 64 bits: the remaining digits raise the exponent
      let extra := ds.length - taken
      eatMany extra
      match ← peek with
      | some '.' => return .float (← fractionPart positive sig extra)
      | some 'e' | some 'E' => return .float (← exponentPart positive sig extra)
      | _ => return .float (← scale positive sig extra)
    numberTail positive sig

/-- Reads four hexadecimal digits of a `\u` escape. Four bytes are taken before the digits
are checked; with fewer than four bytes left the string ends too early. -/
def hex4 : Scan Nat := do
  let c ← get
  let quad := c.rest.take 4
  let isHex (ch : Char) : Bool := ch.isDigit || ('a' ≤ ch && ch ≤ 'f') || ('A' ≤ ch && ch ≤ 'F')
  if quad.length == 4 && quad.all isHex then
    eatMany 4
    return quad.foldl (fun n ch =>
      n * 16 + (if ch.isDigit then ch.toNat - 48 else if ch ≤ 'F' then ch.toNat - 55
        else ch.toNat - 87)) 0
  else
    let rec take (need : Nat) (fuel : Nat) : Scan Bool :=
      match fuel with
      | 0 => pure true
      | fuel + 1 => do
        if need == 0 then return true
        match ← peek with
        | none => return false
        | some ch =>
          if ch.utf8Size ≤ need then do eat; take (need - ch.utf8Size) fuel
          else do
            -- four bytes end inside this character
            modify fun k => { k with index := k.index + need }
            return true
    if ← take 4 4 then failHere .invalidEscape else failHere .eofString

/-- The characters that may follow `\` in a string. -/
def escapeLetters : List Char := "\"\\/bfnrtu".toList

/-- Reads one escape after `\`, adding its character. -/
def escape (acc : List Char) : Scan (List Char) := do
  match ← peek with
  | none => failHere .eofString
  | some c =>
    if !escapeLetters.contains c then failAhead .invalidEscape
    eat
    match c with
    | 'b' => return Char.ofNat 8 :: acc
    | 'f' => return Char.ofNat 12 :: acc
    | 'n' => return '\n' :: acc
    | 'r' => return '\r' :: acc
    | 't' => return '\t' :: acc
    | 'u' =>
      let n ← hex4
      if 0xDC00 ≤ n && n ≤ 0xDFFF then failHere .loneLeadingSurrogate
      if n < 0xD800 || n > 0xDBFF then return Char.ofNat n :: acc
      match ← peek with
      | some '\\' => eat
      | some _ => failAhead .unexpectedEndOfHexEscape
      | none => failHere .eofString
      match ← peek with
      | some 'u' => eat
      | some _ => failAhead .unexpectedEndOfHexEscape
      | none => failHere .eofString
      let n2 ← hex4
      if n2 < 0xDC00 || n2 > 0xDFFF then failHere .loneLeadingSurrogate
      return Char.ofNat ((((n - 0xD800) <<< 10) ||| (n2 - 0xDC00)) + 0x10000) :: acc
    | c => return c :: acc

def string : Scan String := do
  let rec go (fuel : Nat) (acc : List Char) : Scan String :=
    match fuel with
    | 0 => failHere .eofString
    | fuel + 1 => do
      match ← peek with
      | none => failHere .eofString
      | some '"' => do eat; return String.ofList acc.reverse
      | some '\\' => do eat; go fuel (← escape acc)
      | some c =>
        if c.toNat < 0x20 then do eat; failHere .controlCharacter
        else do eat; go fuel (c :: acc)
  go ((← get).budget) []

/-- Skips the rest of a string after its opening quote; a `\u` escape is not decoded. -/
def skipString : Scan Unit := do
  let rec go (fuel : Nat) : Scan Unit :=
    match fuel with
    | 0 => failHere .eofString
    | fuel + 1 => do
      match ← peek with
      | none => failHere .eofString
      | some '"' => eat
      | some '\\' => do
        eat
        match ← peek with
        | none => failHere .eofString
        | some c =>
          if !escapeLetters.contains c then failAhead .invalidEscape
          eat
          if c == 'u' then do let _ ← hex4
          go fuel
      | some c => if c.toNat < 0x20 then failHere .controlCharacter else do eat; go fuel
  go ((← get).budget)

/-- Reads one character that must be an ASCII digit, or fails with an invalid number. -/
def digitOrFail : Scan Unit := do
  match ← peek with
  | some c => if c.isDigit then eat else failAhead .invalidNumber
  | none => failHere .invalidNumber

/-- Skips a number after its sign, checking its form only. -/
def skipNumber : Scan Unit := do
  let skipDigits : Scan Unit := do eatMany (← digitsAhead).length
  let skipExponent : Scan Unit := do
    eat
    match ← peek with
    | some '+' | some '-' => eat
    | _ => pure ()
    digitOrFail
    skipDigits
  match ← peek with
  | some '0' =>
    eat
    if let some c ← peek then
      if c.isDigit then failAhead .invalidNumber
  | _ => do digitOrFail; skipDigits
  match ← peek with
  | some '.' =>
    eat
    if (← digitsAhead).isEmpty then failAhead .invalidNumber
    skipDigits
    match ← peek with
    | some 'e' | some 'E' => skipExponent
    | _ => pure ()
  | some 'e' | some 'E' => skipExponent
  | _ => pure ()

/-- Looks for the next element of an array: true when one follows. -/
def nextElement (first : Bool) : Scan Bool := do
  let p ← skipBlank
  let p ← match p with
    | some ']' => return false
    | some ',' => if first then pure p else do eat; skipBlank
    | some _ => if first then pure p else failAhead .expectedListCommaOrEnd
    | none => failAhead .eofList
  match p with
  | some ']' => failAhead .trailingComma
  | some _ => return true
  | none => failAhead .eofValue

/-- Looks for the next key of an object and reads it. -/
def nextKey (first : Bool) : Scan (Option String) := do
  let p ← skipBlank
  let p ← match p with
    | some '}' => return none
    | some ',' => if first then pure p else do eat; skipBlank
    | some _ => if first then pure p else failAhead .expectedObjectCommaOrEnd
    | none => failAhead .eofObject
  match p with
  | some '"' => do eat; return some (← string)
  | some '}' => failAhead .trailingComma
  | some _ => failAhead .keyMustBeAString
  | none => failAhead .eofValue

def colon : Scan Unit := do
  match ← skipBlank with
  | some ':' => eat
  | some _ => failAhead .expectedColon
  | none => failAhead .eofObject

def endArray : Scan Unit := do
  match ← skipBlank with
  | some ']' => eat
  | some ',' =>
    eat
    match ← skipBlank with
    | some ']' => failAhead .trailingComma
    | _ => failAhead .trailingCharacters
  | some _ => failAhead .trailingCharacters
  | none => failAhead .eofList

def endObject : Scan Unit := do
  match ← skipBlank with
  | some '}' => eat
  | some ',' => failAhead .trailingComma
  | some _ => failAhead .trailingCharacters
  | none => failAhead .eofObject

def finish : Scan Unit := do
  if (← skipBlank).isSome then failAhead .trailingCharacters

/-- Skips one scalar value, or opens an array or object and returns its bracket. -/
def skipScalarOrOpen : Scan (Option Char) := do
  match ← skipBlank with
  | none => failAhead .eofValue
  | some 'n' => do eat; word "ull".toList; pure none
  | some 't' => do eat; word "rue".toList; pure none
  | some 'f' => do eat; word "alse".toList; pure none
  | some '-' => do eat; skipNumber; pure none
  | some '"' => do eat; skipString; pure none
  | some '[' => do eat; pure (some '[')
  | some '{' => do eat; pure (some '{')
  | some c => if c.isDigit then do skipNumber; pure none else failAhead .expectedValue

/-- Closes brackets after a value inside `frame`: reads `,` (then another value is due) or
the closing bracket (then the enclosing frame continues). Gives the frame in which the next
value is due, or none when the outermost bracket is closed. -/
def closeFrames (frame : Char) (stack : List Char) (acceptComma : Bool) :
    Nat → Scan (Option (Char × List Char))
  | 0 => failHere .recursionLimit
  | fuel + 1 => do
    let p ← skipBlank
    let closes := (p == some ']' && frame == '[') || (p == some '}' && frame == '{')
    if p == some ',' && acceptComma then do eat; return some (frame, stack)
    if !closes then
      match p with
      | some _ =>
        if acceptComma then
          failAhead (if frame == '[' then .expectedListCommaOrEnd else .expectedObjectCommaOrEnd)
        else return some (frame, stack)
      | none => failAhead (if frame == '[' then .eofList else .eofObject)
    eat
    match stack with
    | [] => return none
    | f :: rest => closeFrames f rest true fuel

/-- Skips one value of any kind, checking its form, with an explicit stack of open brackets. -/
def skipValue : Scan Unit := do
  let rec go (enclosing : Option Char) (stack : List Char) (fuel : Nat) : Scan Unit :=
    match fuel with
    | 0 => failHere .recursionLimit
    | fuel + 1 => do
      let opened ← skipScalarOrOpen
      let stack := match opened with
        | some _ => match enclosing with
          | some e => e :: stack
          | none => stack
        | none => stack
      let start : Option (Bool × Char × List Char) := match opened with
        | some f => some (false, f, stack)
        | none => match enclosing with
          | some f => some (true, f, stack)
          | none => match stack with
            | f :: rest => some (true, f, rest)
            | [] => none
      match start with
      | none => pure ()
      | some (acceptComma, frame, stack) =>
        match ← closeFrames frame stack acceptComma ((← get).budget) with
        | none => pure ()
        | some (frame, stack) =>
          if frame == '{' then
            match ← skipBlank with
            | some '"' => eat
            | some _ => failAhead .keyMustBeAString
            | none => failAhead .eofObject
            skipString
            match ← skipBlank with
            | some ':' => eat
            | some _ => failAhead .expectedColon
            | none => failAhead .eofObject
          go (some frame) stack fuel
  go none [] ((← get).budget)

end Scan

end ClipSearch.Json
