import ClipSearch.Catalog.RecordText
import ClipSearch.Files
import ClipSearch.Decimal.Text
import ClipSearch.Text.Blank
/-!
Loading a catalog file and a settings file.

A catalog is either one JSON array of clip records (when its text, after leading blanks, starts
with `[`) or one record per line. Lines are split at line feeds, a carriage return before the
line feed is dropped, and blank lines are skipped. Records that do not read are skipped, but a
hundred failures in a row stop the loading, and so does a share of failures above one half,
reported with one decimal of its percentage.

A file larger than 50 MiB is refused before it is read; a file that is not valid UTF-8 cannot
be read. A failure is a chain of messages, from the outermost context to the cause.
-/
namespace ClipSearch.Catalog

open ClipSearch.Files ClipSearch.Text ClipSearch.Json

/-- A failure as a chain of messages, the outermost first. -/
structure Failure where
  chain : List String
  deriving Repr

namespace Failure

def within (context : String) (f : Failure) : Failure := ⟨context :: f.chain⟩

def joined (f : Failure) : String := ": ".intercalate f.chain

/-- The report printed when the program stops: the outermost message, then its causes. -/
def report (f : Failure) : String :=
  match f.chain with
  | [] => "Error: \n"
  | [m] => "Error: " ++ m ++ "\n"
  | [m, c] => "Error: " ++ m ++ "\n\nCaused by:\n    " ++ c ++ "\n"
  | m :: cs =>
    "Error: " ++ m ++ "\n\nCaused by:\n" ++
      String.join ((cs.zipIdx).map fun (c, i) => "    " ++ toString i ++ ": " ++ c ++ "\n")

end Failure

def maxFileSize : Nat := 52428800

/-- The lines of a text: split at line feeds, one carriage return before each dropped, and no
empty line after a final line feed. -/
def linesOf (s : String) : List String :=
  let pieces := s.splitOn "\n"
  let dropReturn (p : String) : String :=
    if p.endsWith "\r" then String.ofList p.toList.dropLast else p
  -- every piece but the last was ended by a line feed
  let ended := pieces.dropLast.map dropReturn
  match pieces.getLast? with
  | some "" | none => ended
  | some last => ended ++ [last]

/-- How far reading lines has come; the clips read so far are kept newest first. -/
structure LineTally where
  clipsBack : List Clip := []
  total : Nat := 0
  skipped : Nat := 0
  inRow : Nat := 0

/-- Reads one line into the tally; a hundred failures in a row stop the reading. -/
def LineTally.add (t : LineTally) (line : String) : Except String LineTally :=
  if isBlankText line then .ok t
  else
    match readClip line with
    | .ok c => .ok { t with clipsBack := c :: t.clipsBack, total := t.total + 1, inRow := 0 }
    | .error _ =>
      if t.inRow + 1 ≥ 100 then
        .error ("Too many consecutive parse errors (" ++ toString (t.inRow + 1) ++
          ") in catalog - file may be corrupted")
      else .ok { t with total := t.total + 1, skipped := t.skipped + 1, inRow := t.inRow + 1 }

/-- The share of failures as a double, `skipped / total`. -/
def failureRate (skipped total : Nat) : Float :=
  ClipSearch.Decimal.Binary.ofDecimal false skipped 0 / ClipSearch.Decimal.Binary.ofDecimal false total 0

def readLines (content : String) : Except String (List Clip) := do
  let t ← (linesOf content).foldlM LineTally.add {}
  if t.total > 0 then
    let rate := failureRate t.skipped t.total
    if rate > 0.5 then
      throw ("Too many parse failures in catalog: " ++ toString t.skipped ++ " of " ++
        toString t.total ++ " lines failed (" ++ ClipSearch.Decimal.fixed 1 (rate * 100.0) ++ "%)")
  return t.clipsBack.reverse

/-- Reads a catalog text: an array of records, or one record per line. -/
def readCatalogText (path content : String) : Except Failure (List Clip) :=
  if firstNonBlank content == some '[' then
    match readClips content with
    | .ok cs => .ok cs
    | .error f => .error ⟨["Failed to parse catalog array: " ++ path, f.message]⟩
  else
    match readLines content with
    | .ok cs => .ok cs
    | .error m => .error ⟨["Failed to parse catalog file: " ++ path, m]⟩

/-- Loads the catalog at `path`, which holds what `probe` says. -/
def loadCatalog (path : String) (probe : Probe) : Except Failure (List Clip) :=
  match probe with
  | .missing e => .error ⟨["Failed to open catalog file: " ++ path, e.message]⟩
  | .directory => .error ⟨["Failed to read catalog file: " ++ path, OsError.isDirectory.message]⟩
  | .file body =>
    if body.size > maxFileSize then
      .error ⟨["File too large: " ++ path ++ " (" ++ toString body.size ++ " bytes, max " ++
        toString maxFileSize ++ " bytes)"]⟩
    else match body.text? with
      | none => .error ⟨["Failed to read catalog file: " ++ path, "stream did not contain valid UTF-8"]⟩
      | some content => readCatalogText path content

def loadSettings (path : String) (probe : Probe) : Except Failure Settings :=
  let readFail (m : String) : Except Failure Settings :=
    .error ⟨["Failed to read settings file: " ++ path, m]⟩
  match probe with
  | .missing e => readFail e.message
  | .directory => readFail OsError.isDirectory.message
  | .file body =>
    match body.text? with
    | none => readFail "stream did not contain valid UTF-8"
    | some content =>
      match readSettings content with
      | .ok s => .ok s
      | .error f => .error ⟨["Failed to parse settings file: " ++ path, f.message]⟩

end ClipSearch.Catalog
