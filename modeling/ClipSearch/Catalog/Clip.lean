import ClipSearch.Catalog.Brand
import ClipSearch.Catalog.LiveType
import ClipSearch.Calendar.Moment
import ClipSearch.Decimal.Binary
/-!
Clips: one catalogued video clip with its texts, duration, dates, live type, brands and
performers. Every part may be missing from a record; a missing text is `none`, a missing
number is zero, and missing lists are empty.
-/
namespace ClipSearch.Catalog

open ClipSearch.Calendar

/-- A performer of a clip, with the phonetic reading of the name. -/
structure Performer where
  name : String
  reading : String := ""
  deriving DecidableEq, Repr, Inhabited

structure Clip where
  id : Int := 0
  filePath : Option String := none
  clipName : Option String := none
  songTitle : Option String := none
  concertName : Option String := none
  lyrics : Option String := none
  remarks : Option String := none
  durationMs : Nat := 0
  concertDate : Option Moment := none
  createdAt : Option Moment := none
  updatedAt : Option Moment := none
  liveType : LiveType := .seiyuu
  brands : BrandSet := .empty
  performers : List Performer := []
  deriving Repr, Inhabited

namespace Clip

/-- The short label of a clip: the first non-empty of clip name, song title and file path,
else `(untitled)`. -/
def label (c : Clip) : String :=
  match [c.clipName, c.songTitle, c.filePath].filterMap (fun o => o) |>.find? (· != "") with
  | some s => s
  | none => "(untitled)"

/-- The duration in seconds, as the double nearest to the milliseconds divided by 1000. -/
def durationSecs (c : Clip) : Float :=
  ClipSearch.Decimal.Binary.ofDecimal false c.durationMs 0 / 1000.0

end Clip

end ClipSearch.Catalog
