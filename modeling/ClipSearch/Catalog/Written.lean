import ClipSearch.Catalog.Clip
import ClipSearch.Catalog.Settings
import ClipSearch.Json.Value
/-!
Catalog records as they are written: every field in declaration order, texts as strings or
`null`, dates as `yyyy/MM/dd HH:mm:ss` or `null`, the live type by its name, brands as the list
of their labels, performers as objects of name and reading.
-/
namespace ClipSearch.Catalog

open ClipSearch.Json ClipSearch.Calendar

/-- An integer as a JSON number. -/
def intValue (n : Int) : Value := if n ≥ 0 then .number (.nat n.toNat) else .number (.neg n)

def optTextValue : Option String → Value
  | some s => .string s
  | none => .null

/-- A date as written in records, or `null`. -/
def momentValue : Option Moment → Value
  | some m => .string m.recordText
  | none => .null

def Performer.toValue (p : Performer) : Value :=
  .object [("name", .string p.name), ("reading", .string p.reading)]

def Clip.toValue (c : Clip) : Value :=
  .object [("id", intValue c.id), ("filePath", optTextValue c.filePath),
    ("clipName", optTextValue c.clipName), ("songTitle", optTextValue c.songTitle),
    ("concertName", optTextValue c.concertName), ("lyrics", optTextValue c.lyrics),
    ("remarks", optTextValue c.remarks), ("durationMs", .number (.nat c.durationMs)),
    ("concertDate", momentValue c.concertDate), ("createdAt", momentValue c.createdAt),
    ("updatedAt", momentValue c.updatedAt), ("liveType", .string c.liveType.name),
    ("brands", .array (c.brands.labels.map .string)),
    ("performers", .array (c.performers.map Performer.toValue))]

/-- Settings as written: the nine switches. -/
def Settings.toValue (s : Settings) : Value :=
  .object (s.entries.map fun (k, b) => (k, .bool b))

end ClipSearch.Catalog
