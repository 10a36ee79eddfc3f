import ClipSearch.Cli.Line
/-!
The help texts, and the version line.

Each option's line starts with its switches, padded so that every description in a section
starts in one column, two spaces past the longest switch text of the section.
-/
namespace ClipSearch.Cli

def programName : String := "imas-clip-search"

def versionText : String := programName ++ " 0.1.0\n"

/-- One entry of a help section: the switch text, whether it has a one-letter form, and what
it does. -/
structure Entry where
  switch : String
  short : Option Char
  about : String

/-- An option's line: two spaces, the one-letter form or room for it, the switch text, and the
description in the section's column; the padding is written even when there is no
description. -/
def Entry.optionLine (width : Nat) (e : Entry) : String :=
  let lead := match e.short with
    | some c => "  -" ++ c.toString ++ ", "
    | none => "      "
  lead ++ e.switch ++ String.ofList (List.replicate (width + 2 - e.switch.length) ' ') ++ e.about

/-- A positional argument's line or a subcommand's line. -/
def Entry.plainLine (width : Nat) (e : Entry) : String :=
  "  " ++ e.switch ++ String.ofList (List.replicate (width + 2 - e.switch.length) ' ') ++ e.about

def widest (es : List Entry) : Nat := es.foldl (fun m e => max m e.switch.length) 2

/-- A titled section of option lines. -/
def optionSection (title : String) (es : List Entry) : String :=
  title ++ ":\n" ++ String.join (es.map fun e => e.optionLine (widest es) ++ "\n")

/-- A titled section of plain lines. -/
def plainSection (title : String) (es : List Entry) : String :=
  title ++ ":\n" ++ String.join (es.map fun e => e.plainLine (widest es) ++ "\n")

def helpEntry : Entry := ⟨"--help", some 'h', "Print help"⟩

/-- An option whose default is the empty text, shown quoted. -/
def emptyDefault (switch about : String) : Entry :=
  ⟨switch, none, if about.isEmpty then "[default: \"\"]" else about ++ " [default: \"\"]"⟩

def helpText : Topic → String
  | .main =>
    "Search a clip catalog with the clip-manager query language\n\n" ++
    "Usage: " ++ programName ++ " [COMMAND]\n\n" ++
    plainSection "Commands" [⟨"search", none, "Run a query against a catalog file"⟩,
      ⟨"build", none, "Build a query string from structured filters"⟩,
      ⟨"stats", none, "Show statistics about a catalog"⟩,
      ⟨"help", none, "Print this message or the help of the given subcommand(s)"⟩] ++ "\n" ++
    optionSection "Options" [helpEntry, ⟨"--version", some 'V', "Print version"⟩]
  | .search =>
    "Run a query against a catalog file\n\n" ++
    "Usage: " ++ programName ++ " search [OPTIONS] --catalog <CATALOG> <QUERY>\n\n" ++
    plainSection "Arguments" [⟨"<QUERY>", none, "Query string, e.g. `?song:Shine -?performers:春香`"⟩] ++
    "\n" ++
    optionSection "Options" [⟨"--catalog <CATALOG>", none, "Catalog file (JSON array or JSONL)"⟩,
      ⟨"--settings <SETTINGS>", none, "Search settings file controlling unkeyed terms"⟩,
      ⟨"--count", none, "Print only the number of matches"⟩,
      ⟨"--json", none, "Print matches as a JSON array"⟩, helpEntry]
  | .build =>
    "Build a query string from structured filters\n\n" ++
    "Usage: " ++ programName ++ " build [OPTIONS]\n\n" ++
    optionSection "Options" [emptyDefault "--path <PATH>" "", emptyDefault "--clip <CLIP>" "",
      emptyDefault "--song <SONG>" "", emptyDefault "--concert <CONCERT>" "",
      emptyDefault "--lyrics <LYRICS>" "", emptyDefault "--remarks <REMARKS>" "",
      emptyDefault "--min-duration <MIN_DURATION>" "Minimum duration (`mm:ss` or `hh:mm:ss`)",
      emptyDefault "--max-duration <MAX_DURATION>" "Maximum duration (`mm:ss` or `hh:mm:ss`)",
      ⟨"--date-from <DATE_FROM>", none, ""⟩, ⟨"--date-to <DATE_TO>", none, ""⟩,
      ⟨"--created-from <CREATED_FROM>", none, ""⟩, ⟨"--created-to <CREATED_TO>", none, ""⟩,
      ⟨"--updated-from <UPDATED_FROM>", none, ""⟩, ⟨"--updated-to <UPDATED_TO>", none, ""⟩,
      ⟨"--brand <BRANDS>", none, "Brand label or flag name, repeatable"⟩,
      ⟨"--type <LIVE_TYPES>", none, "Live type label or variant name, repeatable"⟩,
      ⟨"--performer <PERFORMERS>", none, "Performer name, repeatable"⟩, helpEntry]
  | .stats =>
    "Show statistics about a catalog\n\n" ++
    "Usage: " ++ programName ++ " stats --catalog <CATALOG>\n\n" ++
    optionSection "Options" [⟨"--catalog <CATALOG>", none, ""⟩, helpEntry]
  | .help =>
    "Print this message or the help of the given subcommand(s)\n\n" ++
    "Usage: " ++ programName ++ " help [COMMAND]...\n\n" ++
    plainSection "Arguments" [⟨"[COMMAND]...", none, "Print help for the subcommand(s)"⟩]

end ClipSearch.Cli
