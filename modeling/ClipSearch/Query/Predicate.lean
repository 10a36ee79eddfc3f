import ClipSearch.Query.Range
import ClipSearch.Catalog.Clip
import ClipSearch.Catalog.Settings
import ClipSearch.Text.Lower
/-!
Predicates over clips.

A predicate is a tree of field tests and free words joined by `and`, `or` and `not`; the empty
`and` holds of every clip. A field test compares one part of a clip: a text field, the live type
label, the brand display text or the performers by case-blind containment of a needle that is
already lowercased; the duration in seconds or a date by a range. A free word is contained in
any of the fields that the settings switch on.

`Predicate.accepts` decides whether a predicate holds of a clip.
-/
namespace ClipSearch.Query

open ClipSearch.Catalog ClipSearch.Calendar ClipSearch.Text

/-- The keys a query may name. -/
inductive FieldKey where
  | path | clip | song | concert | lyrics | remarks | type | brands | performers | duration
  | date | created | updated
  deriving DecidableEq, Repr

namespace FieldKey

def all : List FieldKey :=
  [.path, .clip, .song, .concert, .lyrics, .remarks, .type, .brands, .performers, .duration,
   .date, .created, .updated]

/-- The word that names a key in a query. -/
def keyword : FieldKey → String
  | .path => "path" | .clip => "clip" | .song => "song" | .concert => "concert"
  | .lyrics => "lyrics" | .remarks => "remarks" | .type => "type" | .brands => "brands"
  | .performers => "performers" | .duration => "duration" | .date => "date"
  | .created => "created" | .updated => "updated"

/-- The key a word names, ignoring ASCII case; `brand` and `performer` are accepted too. -/
def ofWord? (s : String) : Option FieldKey :=
  let w := String.ofList (s.toList.map Char.toLower)
  if w == "brand" then some .brands
  else if w == "performer" then some .performers
  else all.find? (·.keyword == w)

end FieldKey

inductive TextField where
  | filePath | clipName | songTitle | concertName | lyrics | remarks
  deriving DecidableEq, Repr

def TextField.get (f : TextField) (c : Clip) : Option String :=
  match f with
  | .filePath => c.filePath | .clipName => c.clipName | .songTitle => c.songTitle
  | .concertName => c.concertName | .lyrics => c.lyrics | .remarks => c.remarks

inductive DateField where
  | concertDate | createdAt | updatedAt
  deriving DecidableEq, Repr

def DateField.get (f : DateField) (c : Clip) : Option Moment :=
  match f with
  | .concertDate => c.concertDate | .createdAt => c.createdAt | .updatedAt => c.updatedAt

/-- A test on one field of a clip. -/
inductive FieldTest where
  | text (field : TextField) (needle : String)
  | liveType (needle : String)
  | brands (needle : String)
  | performers (needle : String)
  | duration (range : NumericRange)
  | date (field : DateField) (range : DateRange)
  | unknown
  deriving Repr

/-- A free word matched against the fields that the settings switch on. -/
structure FreeWord where
  keyword : String
  settings : Settings
  deriving Repr

/-- A tree of tests joined by `and`, `or` and `not`. -/
inductive Predicate where
  | field (test : FieldTest)
  | word (w : FreeWord)
  | not (p : Predicate)
  | and (ps : List Predicate)
  | or (ps : List Predicate)
  deriving Repr

/-- Whether some performer's name or reading contains the lowercased needle. -/
def anyPerformerHas (c : Clip) (needle : String) : Bool :=
  c.performers.any fun p => containsLowered p.name needle || containsLowered p.reading needle

/-- Whether a text field is present and contains the lowercased needle. -/
def fieldHas (v : Option String) (needle : String) : Bool :=
  match v with
  | some s => containsLowered s needle
  | none => false

namespace FieldTest

/-- The test for a key and its value text; an unknown key gives the test that never holds. -/
def ofKey (key value : String) : FieldTest :=
  match FieldKey.ofWord? key with
  | none => .unknown
  | some k =>
    let text (f : TextField) : FieldTest := .text f (lower value)
    match k with
    | .path => text .filePath
    | .clip => text .clipName
    | .song => text .songTitle
    | .concert => text .concertName
    | .lyrics => text .lyrics
    | .remarks => text .remarks
    | .type => .liveType (lower value)
    | .brands => .brands (lower value)
    | .performers => .performers (lower value)
    | .duration => .duration (NumericRange.ofText value)
    | .date => .date .concertDate (DateRange.ofText value)
    | .created => .date .createdAt (DateRange.ofText value)
    | .updated => .date .updatedAt (DateRange.ofText value)

def accepts (t : FieldTest) (c : Clip) : Bool :=
  match t with
  | .text f needle => fieldHas (f.get c) needle
  | .liveType needle => containsLowered c.liveType.label needle
  | .brands needle => containsLowered c.brands.display needle
  | .performers needle => anyPerformerHas c needle
  | .duration r => r.holds (some c.durationSecs)
  | .date f r => r.holds (f.get c)
  | .unknown => false

end FieldTest

namespace FreeWord

def make (keyword : String) (settings : Settings) : FreeWord := ⟨lower keyword, settings⟩

/-- Whether the word is in some field that the settings switch on. -/
def accepts (w : FreeWord) (c : Clip) : Bool :=
  let s := w.settings
  let k := w.keyword
  (s.filePath && fieldHas c.filePath k) || (s.clipName && fieldHas c.clipName k) ||
    (s.songTitle && fieldHas c.songTitle k) || (s.concertName && fieldHas c.concertName k) ||
    (s.liveType && containsLowered c.liveType.label k) ||
    (s.brands && containsLowered c.brands.display k) ||
    (s.lyrics && fieldHas c.lyrics k) || (s.remarks && fieldHas c.remarks k) ||
    (s.performers && anyPerformerHas c k)

end FreeWord

namespace Predicate

def matchAll : Predicate := .and []

def isMatchAll : Predicate → Bool
  | .and [] => true
  | _ => false

def accepts (c : Clip) : Predicate → Bool
  | .field t => t.accepts c
  | .word w => w.accepts c
  | .not p => !accepts c p
  | .and ps => ps.attach.all fun ⟨p, _⟩ => accepts c p
  | .or ps => ps.attach.any fun ⟨p, _⟩ => accepts c p

end Predicate

/-- The clips a predicate selects, in catalog order. -/
def select (p : Predicate) (clips : List Clip) : List Clip := clips.filter (p.accepts ·)

/-- The positions of the clips a predicate selects, in catalog order. -/
def selectPositions (p : Predicate) (clips : List Clip) : List Nat :=
  (List.range clips.length).zip clips |>.filter (fun (_, c) => p.accepts c) |>.map Prod.fst

def countSelected (p : Predicate) (clips : List Clip) : Nat := (select p clips).length

end ClipSearch.Query
