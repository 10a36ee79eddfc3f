import ClipSearch.Cli.Help
import ClipSearch.Catalog.Load
import ClipSearch.Catalog.Written
import ClipSearch.Json.Writer
import ClipSearch.Query.Search
/-!
Running a command against what the paths hold.

A run sees its files only through `World.probe`, which says what a path holds, and knows its
home directory. It ends with an exit status and the text written to standard output and
standard error:

* status 0 with the command's output;
* status 1 when loading failed, with the error and its cause on standard error;
* status 2 on a usage error, with nothing written.

`search` first settles the settings (the file named by `--settings`, else the default file if
it is a file, else none), then loads the catalog, then prints the count, the matches as JSON, or
one line per match. `build` prints a warning per range left out, then the query. `stats` prints
totals, counts per live type and per brand present, and the oldest and newest concert dates.
-/
namespace ClipSearch.Cli

open ClipSearch.Catalog ClipSearch.Calendar ClipSearch.Query ClipSearch.Files ClipSearch.Json

/-- What a run can see: the contents of paths and the home directory. -/
structure World where
  probe : String → Probe
  home : String

/-- How a run ends. -/
structure Exit where
  status : Nat
  stdout : String
  stderr : String
  deriving DecidableEq, Repr

def Exit.printed (out : String) : Exit := ⟨0, out, ""⟩

def Exit.failed (f : Failure) : Exit := ⟨1, "", f.report⟩

def Exit.usage : Exit := ⟨2, "", ""⟩

/-- The settings file looked for when none is named. -/
def defaultSettingsPath (home : String) : String :=
  home ++ "/.config/imas-clip-manager/search-settings.json"

/-- The settings for unkeyed words: those of the named file, or of the default file when it is
a file, or none. -/
def resolveSettings (w : World) (named : Option String) : Except Failure (Option Settings) :=
  match named with
  | some path => (loadSettings path (w.probe path)).map some
  | none =>
    let path := defaultSettingsPath w.home
    match w.probe path with
    | .file body => (loadSettings path (.file body)).map some
    | _ => .ok none

/-- A path with the home directory at its start written as `~`. -/
def withTilde (home path : String) : String :=
  if !home.isEmpty && path.startsWith home then "~" ++ String.ofList (path.toList.drop home.length)
  else path

/-- One line per clip: id, label, duration and brands, separated by tabs. -/
def clipLine (c : Clip) : String :=
  toString c.id ++ "\t" ++ c.label ++ "\t" ++ Duration.clockText c.durationMs ++ "\t" ++
    c.brands.display

def msLimit : Nat := Nat.pow 2 64 - 1

/-- The total duration, held at the largest count rather than passing it. -/
def totalMs (clips : List Clip) : Nat :=
  clips.foldl (fun acc c => min (acc + c.durationMs) msLimit) 0

/-- The oldest and newest concert dates, if any clip has one. -/
def concertSpan (clips : List Clip) : Option (Date × Date) :=
  clips.foldl (fun acc c =>
    match c.concertDate with
    | none => acc
    | some m => match acc with
      | none => some (m.date, m.date)
      | some (lo, hi) => some (lo.earlier m.date, hi.later m.date)) none

/-- The statistics text of a catalog loaded from `path`. -/
def statsText (home path : String) (clips : List Clip) : String :=
  let byType := LiveType.all.map fun t =>
    "  " ++ t.label ++ ": " ++ toString (clips.filter (·.liveType == t)).length ++ "\n"
  let byBrand := Brand.all.filterMap fun b =>
    let n := (clips.filter (·.brands.has b)).length
    if n > 0 then some ("  " ++ b.label ++ ": " ++ toString n ++ "\n") else none
  let span := match concertSpan clips with
    | some (lo, hi) => "\nOldest concert: " ++ lo.slashText ++ "\nNewest concert: " ++ hi.slashText ++ "\n"
    | none => ""
  "Clip Catalog Statistics\n=======================\n" ++
  "Catalog: " ++ withTilde home path ++ "\n" ++
  "Total clips: " ++ toString clips.length ++ "\n" ++
  "Total duration: " ++ Duration.clockText (totalMs clips) ++ "\n\n" ++
  "By live type:\n" ++ String.join byType ++
  "By brand:\n" ++ String.join byBrand ++ span

/-- Catalogs of at least this many clips are filtered in parallel. -/
def parallelThreshold : Nat := 10000

/-- The matches a search prints: a large catalog goes through the parallel filter, a small one
through the sequential filter. The parallel filter gives the same clips wherever the catalog is
cut; here it is left whole. -/
def searchMatches (p : Predicate) (clips : List Clip) : List Clip :=
  if parallelThreshold ≤ clips.length then parFilterClips p [clips] else filterClips p clips

def searchText (p : Predicate) (clips : List Clip) (count json : Bool) : String :=
  if count then toString (countSelected p clips) ++ "\n"
  else if json then pretty (.array ((searchMatches p clips).map Clip.toValue)) ++ "\n"
  else String.join ((searchMatches p clips).map fun c => clipLine c ++ "\n")

/-- The output of `build`: warnings on standard error, the query on standard output. -/
def buildExit (form : Form) : Exit :=
  let built := form.build
  let warnings := built.errors.map fun (k, e) =>
    "Warning: ?" ++ k.keyword ++ " omitted: " ++ e.message ++ "\n"
  ⟨0, built.query ++ "\n", String.join warnings⟩

def Command.run (w : World) : Command → Exit
  | .search query catalog named count json =>
    match resolveSettings w named with
    | .error f => .failed f
    | .ok settings =>
      match loadCatalog catalog (w.probe catalog) with
      | .error f => .failed f
      | .ok clips => .printed (searchText (compile query (settings.getD Settings.all)) clips count json)
  | .build form => buildExit form
  | .stats catalog =>
    match loadCatalog catalog (w.probe catalog) with
    | .error f => .failed f
    | .ok clips => .printed (statsText w.home catalog clips)
  | .idle => .printed "Use --help for usage information\n"

/-- The paths a command looks at, so that a caller can find out what they hold first. -/
def Command.paths (home : String) : Command → List String
  | .search _ catalog named _ _ => [named.getD (defaultSettingsPath home), catalog]
  | .stats catalog => [catalog]
  | _ => []

/-- The paths the words lead the program to look at. -/
def wordsPaths (home : String) (words : List String) : List String :=
  match invocation words with
  | .run c => c.paths home
  | _ => []

def runWords (w : World) (words : List String) : Exit :=
  match invocation words with
  | .run c => c.run w
  | .help t => .printed (helpText t)
  | .version => .printed versionText
  | .usage => .usage

end ClipSearch.Cli
