/-!
Search settings: which fields a free word is matched against. Every switch is on unless a
settings record turns it off.
-/
namespace ClipSearch.Catalog

/-- Nine switches, one per searchable field. -/
structure Settings where
  filePath : Bool := true
  clipName : Bool := true
  songTitle : Bool := true
  concertName : Bool := true
  liveType : Bool := true
  brands : Bool := true
  lyrics : Bool := true
  remarks : Bool := true
  performers : Bool := true
  deriving DecidableEq, Repr

namespace Settings

def all : Settings := {}

instance : Inhabited Settings := ⟨all⟩

/-- The switches with their record names, in record order. -/
def entries (s : Settings) : List (String × Bool) :=
  [("filePath", s.filePath), ("clipName", s.clipName), ("songTitle", s.songTitle),
   ("concertName", s.concertName), ("liveType", s.liveType), ("brands", s.brands),
   ("lyrics", s.lyrics), ("remarks", s.remarks), ("performers", s.performers)]

def names : List String := all.entries.map Prod.fst

/-- Sets the switch at a position of `names`; other positions change nothing. -/
def setAt (s : Settings) (i : Nat) (v : Bool) : Settings :=
  match i with
  | 0 => { s with filePath := v }
  | 1 => { s with clipName := v }
  | 2 => { s with songTitle := v }
  | 3 => { s with concertName := v }
  | 4 => { s with liveType := v }
  | 5 => { s with brands := v }
  | 6 => { s with lyrics := v }
  | 7 => { s with remarks := v }
  | 8 => { s with performers := v }
  | _ => s

end Settings

end ClipSearch.Catalog
