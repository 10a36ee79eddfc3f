import ClipSearch.Catalog.Clip
import ClipSearch.Catalog.Settings
import ClipSearch.Catalog.Lenient
import ClipSearch.Json.Error
/-!
Catalog records from JSON values already in memory.

A clip record is an object whose keys are field names (others are ignored; keys are visited in
sorted order), or an array holding the fields in declaration order (missing ones take their
defaults, extra ones are refused). The id is a signed and the duration an unsigned 64-bit
integer; texts are strings or `null`; the live type is its name, or an object with the name as
its only key and `null` as value; dates and brands take their lenient forms; performers are an
array of performer records, each needing a `name`. Settings records hold nine booleans, all
optional. The first problem met is the one reported.
-/
namespace ClipSearch.Catalog

open ClipSearch.Json

abbrev Decode := Except Problem

/-- What a value is, as messages name it. -/
def foundOf : Value → Found
  | .null => .null
  | .bool b => .bool b
  | .number (.nat n) => .nat n
  | .number (.neg n) => .int n
  | .number (.float x) => .float x
  | .string s => .str s
  | .array _ => .seq
  | .object _ => .map

def int64Of : Value → Decode Int
  | .number (.nat n) => if n ≤ i64Max then .ok n else .error (.invalidValue (.nat n) "i64")
  | .number (.neg n) => .ok n
  | v => .error (.invalidType (foundOf v) "i64")

def countOf : Value → Decode Nat
  | .number (.nat n) => .ok n
  | .number (.neg n) => .error (.invalidValue (.int n) "u64")
  | v => .error (.invalidType (foundOf v) "u64")

def textOf : Value → Decode String
  | .string s => .ok s
  | v => .error (.invalidType (foundOf v) "a string")

def optTextOf : Value → Decode (Option String)
  | .null => .ok none
  | v => (textOf v).map some

def flagOf : Value → Decode Bool
  | .bool b => .ok b
  | v => .error (.invalidType (foundOf v) "a boolean")

def liveTypeNames : List String := LiveType.all.map LiveType.name

/-- A live type from its name. -/
def liveTypeOfName (s : String) : Decode LiveType :=
  match LiveType.ofName? s with
  | some t => .ok t
  | none => .error (.unknownVariant s liveTypeNames)

/-- A live type: its name, or an object holding only its name with a `null` value. -/
def liveTypeOf : Value → Decode LiveType
  | .string s => liveTypeOfName s
  | .object [(k, v)] => do
    let t ← liveTypeOfName k
    match v with
    | .null => .ok t
    | w => .error (.invalidType (foundOf w) "unit")
  | .object _ => .error (.invalidValue .map "map with a single key")
  | v => .error (.invalidType (foundOf v) "string or map")

/-- A lenient value's refusal as a problem. -/
def lenient {α : Type} : Except LenientError α → Decode α
  | .ok a => .ok a
  | .error e => .error (.custom e.message)

/-- Refuses array elements beyond those a record has. -/
def noExtra (items : List Value) (used : Nat) : Decode Unit :=
  if items.length > used then .error (.invalidLength items.length "fewer elements in array")
  else .ok ()

def performerOf : Value → Decode Performer
  | .object fields => do
    let (name, reading) ← fields.foldlM (fun (acc : Option String × String) (k, v) =>
      if k == "name" then do return (some (← textOf v), acc.2)
      else if k == "reading" then do return (acc.1, ← textOf v)
      else .ok acc) (none, "")
    match name with
    | some n => return ⟨n, reading⟩
    | none => .error (.missingField "name")
  | .array items => do
    let name ← match items with
      | v :: _ => textOf v
      | [] => .error (.invalidLength 0 "struct Performer with 2 elements")
    let reading ← match items.drop 1 with
      | v :: _ => textOf v
      | [] => .ok ""
    noExtra items 2
    return ⟨name, reading⟩
  | v => .error (.invalidType (foundOf v) "struct Performer")

def performersOf : Value → Decode (List Performer)
  | .array items => items.mapM performerOf
  | v => .error (.invalidType (foundOf v) "a sequence")

/-- The field names of a clip record, in declaration order. -/
def clipFields : List String :=
  ["id", "filePath", "clipName", "songTitle", "concertName", "lyrics", "remarks", "durationMs",
   "concertDate", "createdAt", "updatedAt", "liveType", "brands", "performers"]

/-- Sets the field at a position of `clipFields` from its value. -/
def Clip.setField (c : Clip) (i : Nat) (v : Value) : Decode Clip :=
  match i with
  | 0 => return { c with id := ← int64Of v }
  | 1 => return { c with filePath := ← optTextOf v }
  | 2 => return { c with clipName := ← optTextOf v }
  | 3 => return { c with songTitle := ← optTextOf v }
  | 4 => return { c with concertName := ← optTextOf v }
  | 5 => return { c with lyrics := ← optTextOf v }
  | 6 => return { c with remarks := ← optTextOf v }
  | 7 => return { c with durationMs := ← countOf v }
  | 8 => return { c with concertDate := ← lenient (dateOfValue v) }
  | 9 => return { c with createdAt := ← lenient (dateOfValue v) }
  | 10 => return { c with updatedAt := ← lenient (dateOfValue v) }
  | 11 => return { c with liveType := ← liveTypeOf v }
  | 12 => return { c with brands := ← lenient (brandsOfValue v) }
  | 13 => return { c with performers := ← performersOf v }
  | _ => return c

def fieldIndex? (names : List String) (key : String) : Option Nat := names.idxOf? key

def clipOf : Value → Decode Clip
  | .object fields =>
    fields.foldlM (fun c (k, v) =>
      match fieldIndex? clipFields k with
      | some i => c.setField i v
      | none => .ok c) {}
  | .array items => do
    let c ← (items.take clipFields.length).zipIdx.foldlM (fun c (v, i) => c.setField i v) {}
    noExtra items clipFields.length
    return c
  | v => .error (.invalidType (foundOf v) "struct Clip")

def settingsOf : Value → Decode Settings
  | .object fields =>
    fields.foldlM (fun s (k, v) =>
      match fieldIndex? Settings.names k with
      | some i => do return s.setAt i (← flagOf v)
      | none => .ok s) Settings.all
  | .array items => do
    let s ← (items.take 9).zipIdx.foldlM (fun s (v, i) => do return s.setAt i (← flagOf v)) Settings.all
    noExtra items 9
    return s
  | v => .error (.invalidType (foundOf v) "struct SearchSettings")

end ClipSearch.Catalog
