import ClipSearch.Catalog.Record
import ClipSearch.Json.Document
/-!
Catalog records read straight from JSON text, with positions in the messages.

The records and their rules are those of `ClipSearch.Catalog.Record`; reading text adds what
only text can show: repeated keys in an object are refused, keys are visited in the order
written, faults of the text are reported where they are found, and a value of the wrong type is
reported after reading past it. A problem of a record's own rules (a date, a brand, a missing
field, an unknown live type) takes the position reached when the record that holds it has been
closed, so after its closing bracket when that follows.
-/
namespace ClipSearch.Catalog

open ClipSearch.Json ClipSearch.Json.Scan

/-- What a number is, as messages name it. -/
def foundOfNumber : Number → Found
  | .nat n => .nat n
  | .neg n => .int n
  | .float x => .float x

/-- Fails at the position reached. -/
def problemHere {α : Type} (p : Problem) : Scan α := do throw ⟨p, some (← here)⟩

/-- Fails because the value at the front has the wrong type: a scalar is read first, an array or
object is not. Blanks are already skipped. -/
def wrongType {α : Type} (expected : String) : Scan α := do
  match ← peek with
  | some 'n' => do eat; word "ull".toList; problemHere (.invalidType .null expected)
  | some 't' => do eat; word "rue".toList; problemHere (.invalidType (.bool true) expected)
  | some 'f' => do eat; word "alse".toList; problemHere (.invalidType (.bool false) expected)
  | some '-' => do
    eat
    let n ← integer false
    problemHere (.invalidType (foundOfNumber n) expected)
  | some '"' => do
    eat
    let s ← string
    problemHere (.invalidType (.str s) expected)
  | some '[' => problemHere (.invalidType .seq expected)
  | some '{' => problemHere (.invalidType .map expected)
  | some c =>
    if c.isDigit then do
      let n ← integer true
      problemHere (.invalidType (foundOfNumber n) expected)
    else failAhead .expectedValue
  | none => failAhead .expectedValue

/-- Reads a number and checks it with `visit`. -/
def numberText {α : Type} (expected : String) (visit : Number → Scan α) : Scan α := settle do
  match ← skipBlank with
  | none => failAhead .eofValue
  | some '-' => do eat; visit (← integer false)
  | some c => if c.isDigit then visit (← integer true) else wrongType expected

def int64Text : Scan Int := numberText "i64" fun
  | .nat n => if n ≤ i64Max then pure n else loose (.invalidValue (.nat n) "i64")
  | .neg n => pure n
  | .float x => loose (.invalidType (.float x) "i64")

def countText : Scan Nat := numberText "u64" fun
  | .nat n => pure n
  | .neg n => loose (.invalidValue (.int n) "u64")
  | .float x => loose (.invalidType (.float x) "u64")

def textText : Scan String := settle do
  match ← skipBlank with
  | none => failAhead .eofValue
  | some '"' => do eat; string
  | some _ => wrongType "a string"

def optTextText : Scan (Option String) := do
  match ← skipBlank with
  | some 'n' => do eat; word "ull".toList; pure none
  | _ => some <$> textText

def flagText : Scan Bool := settle do
  match ← skipBlank with
  | none => failAhead .eofValue
  | some 't' => do eat; word "rue".toList; pure true
  | some 'f' => do eat; word "alse".toList; pure false
  | some _ => wrongType "a boolean"

/-- A lenient value: read whole, then judged. -/
def lenientText {α : Type} (fuel : Nat) (judge : Value → Except LenientError α) : Scan α := do
  let v ← value fuel
  match judge v with
  | .ok a => pure a
  | .error e => loose (.custom e.message)

/-- The name of a live type. -/
def liveTypeNameText : Scan LiveType := settle do
  match ← skipBlank with
  | none => failAhead .eofValue
  | some '"' => do
    eat
    let s ← string
    match LiveType.ofName? s with
    | some t => pure t
    | none => loose (.unknownVariant s liveTypeNames)
  | some _ => wrongType "variant identifier"

/-- The name of a live type as the key of an object: a string is read as a name; an empty
object lacks a value, and anything else is not a key. -/
def liveTypeKeyText : Scan LiveType := do
  match ← skipBlank with
  | none => failAhead .eofValue
  | some '"' => liveTypeNameText
  | some '}' => failAhead .expectedValue
  | some _ => failAhead .keyMustBeAString

/-- `null`, the value of a live type written as an object. -/
def unitText : Scan Unit := settle do
  match ← skipBlank with
  | none => failAhead .eofValue
  | some 'n' => do eat; word "ull".toList
  | some _ => wrongType "unit"

/-- A live type: its name, or an object holding only its name with `null`. -/
def liveTypeText : Scan LiveType := do
  match ← skipBlank with
  | some '{' => do
    enter
    eat
    let t ← liveTypeKeyText
    colon
    unitText
    leave
    match ← skipBlank with
    | some '}' => do eat; pure t
    | some _ => failHere .expectedValue
    | none => failHere .eofObject
  | some '"' => liveTypeNameText
  | some _ => failAhead .expectedValue
  | none => failAhead .eofValue

/-- Reads an array or an object as a record: `bySeq` reads the elements, `byMap` the entries. -/
def recordText {α : Type} (name : String) (bySeq : Scan α) (byMap : Scan α) : Scan α := settle do
  match ← skipBlank with
  | none => failAhead .eofValue
  | some '[' => do
    enter
    eat
    let r ← closing bySeq endArray
    leave
    pure r
  | some '{' => do
    enter
    eat
    let r ← closing byMap endObject
    leave
    pure r
  | some _ => wrongType name

/-- Reads the entries of a record: `entry` reads the value of a known field (given its position
in `names`); unknown keys are skipped and a repeated key is refused. -/
def entriesText {σ : Type} (names : List String) (init : σ) (entry : σ → Nat → Scan σ) :
    Scan σ := do
  let rec go (fuel : Nat) (first : Bool) (seen : List Nat) (acc : σ) : Scan σ :=
    match fuel with
    | 0 => failHere .recursionLimit
    | fuel + 1 => do
      match ← nextKey first with
      | none => pure acc
      | some k =>
        match fieldIndex? names k with
        | some i =>
          if seen.contains i then loose (.duplicateField k)
          colon
          go fuel false (i :: seen) (← entry acc i)
        | none => do
          colon
          skipValue
          go fuel false seen acc
  go ((← get).budget) true [] init

/-- Reads the elements of a record in field order, up to `count`, stopping at the end of the
array; gives the state and how many were read. -/
def elementsText {σ : Type} (count : Nat) (init : σ) (element : σ → Nat → Scan σ) :
    Scan (σ × Nat) := do
  let rec go (i : Nat) (fuel : Nat) (acc : σ) : Scan (σ × Nat) :=
    match fuel with
    | 0 => pure (acc, i)
    | fuel + 1 => do
      if ← nextElement (i == 0) then go (i + 1) fuel (← element acc i)
      else pure (acc, i)
  go 0 count init

def performerText : Scan Performer :=
  recordText "struct Performer"
    (do
      let (p, n) ← elementsText 2 (⟨"", ""⟩ : Performer) fun p i =>
        if i == 0 then do return { p with name := ← textText } else do return { p with reading := ← textText }
      if n == 0 then loose (.invalidLength 0 "struct Performer with 2 elements")
      pure p)
    (do
      let (name, reading) ← entriesText ["name", "reading"] ((none : Option String), "") fun acc i =>
        if i == 0 then do return (some (← textText), acc.2) else do return (acc.1, ← textText)
      match name with
      | some n => pure ⟨n, reading⟩
      | none => loose (.missingField "name"))

def performersText : Scan (List Performer) := settle do
  match ← skipBlank with
  | none => failAhead .eofValue
  | some '[' => do
    enter
    eat
    let rec items (fuel : Nat) (first : Bool) (acc : List Performer) : Scan (List Performer) :=
      match fuel with
      | 0 => failHere .recursionLimit
      | fuel + 1 => do
        if ← nextElement first then items fuel false ((← performerText) :: acc)
        else pure acc.reverse
    let ps ← closing (items ((← get).budget) true []) endArray
    leave
    pure ps
  | some _ => wrongType "a sequence"

/-- Reads the field at a position of `clipFields`. -/
def Clip.readField (fuel : Nat) (c : Clip) (i : Nat) : Scan Clip :=
  match i with
  | 0 => do return { c with id := ← int64Text }
  | 1 => do return { c with filePath := ← optTextText }
  | 2 => do return { c with clipName := ← optTextText }
  | 3 => do return { c with songTitle := ← optTextText }
  | 4 => do return { c with concertName := ← optTextText }
  | 5 => do return { c with lyrics := ← optTextText }
  | 6 => do return { c with remarks := ← optTextText }
  | 7 => do return { c with durationMs := ← countText }
  | 8 => do return { c with concertDate := ← lenientText fuel dateOfValue }
  | 9 => do return { c with createdAt := ← lenientText fuel dateOfValue }
  | 10 => do return { c with updatedAt := ← lenientText fuel dateOfValue }
  | 11 => do return { c with liveType := ← liveTypeText }
  | 12 => do return { c with brands := ← lenientText fuel brandsOfValue }
  | 13 => do return { c with performers := ← performersText }
  | _ => pure c

def clipText (fuel : Nat) : Scan Clip :=
  recordText "struct Clip"
    (do return (← elementsText clipFields.length ({} : Clip) (Clip.readField fuel)).1)
    (entriesText clipFields {} (Clip.readField fuel))

def settingsText : Scan Settings :=
  recordText "struct SearchSettings"
    (do return (← elementsText 9 Settings.all fun s i => do return s.setAt i (← flagText)).1)
    (entriesText Settings.names Settings.all fun s i => do return s.setAt i (← flagText))

def clipsText (fuel : Nat) : Scan (List Clip) := settle do
  match ← skipBlank with
  | none => failAhead .eofValue
  | some '[' => do
    enter
    eat
    let rec items (n : Nat) (first : Bool) (acc : List Clip) : Scan (List Clip) :=
      match n with
      | 0 => failHere .recursionLimit
      | n + 1 => do
        if ← nextElement first then items n false ((← clipText fuel) :: acc)
        else pure acc.reverse
    let cs ← closing (items ((← get).budget) true []) endArray
    leave
    pure cs
  | some _ => wrongType "a sequence"

/-- A clip record from text holding one record. -/
def readClip (text : String) : Except Fault Clip := runText text clipText

def readClips (text : String) : Except Fault (List Clip) := runText text clipsText

def readSettings (text : String) : Except Fault Settings := runText text fun _ => settingsText

end ClipSearch.Catalog
