import ClipSearch.Query.Form
import ClipSearch.Calendar.Reading
import ClipSearch.Catalog.Lenient
import ClipSearch.Text.Split
/-!
The command line: the words after the program's name, read into the command they ask for.

The program has three subcommands, `search`, `build` and `stats`, plus `help`. Options are long
(`--name value` or `--name=value`); `-h`/`--help` asks for help anywhere, and `-V`/`--version`
before the subcommand asks for the version. The rules for the words of a subcommand:

* a word that names a known option is that option, even where a value is awaited;
* a flag takes no value and may be given once; a single option is given at most once; a
  repeatable option may be given again and again;
* a value is checked when it is attached to its option, and an option still waiting for its
  value when the next option comes, or at the end, is an error;
* `--` makes every later word positional;
* `search` takes one positional word, the query, which may start with `-`: until the query has
  been seen, an unknown `--word`, or a `-word` with a letter other than `h`, is taken as a
  value (of a waiting option first, else as the query);
* `search --count` and `--json` exclude each other, and the query and `--catalog` must be given.

Any broken rule is a usage error, which ends the run with status 2.
-/
namespace ClipSearch.Cli

open ClipSearch.Query ClipSearch.Catalog ClipSearch.Calendar ClipSearch.Text

/-- How an option takes words. -/
inductive Arity where
  | flag
  | once
  | many
  deriving DecidableEq, Repr

/-- An option of a subcommand: its long name, how it takes words, and which values it takes. -/
structure OptionSpec where
  name : String
  arity : Arity
  accepts : String → Bool

/-- The words a subcommand understands. -/
structure Signature where
  options : List OptionSpec
  takesQuery : Bool

/-- The words of a subcommand once read: option values in order, flags, and the query. -/
structure Gathered where
  values : List (String × String)
  flags : List String
  query : Option String

/-- Why reading the words stopped early. -/
inductive Stop where
  | usage
  | help
  deriving DecidableEq, Repr

/-- Where the reader is: what it has, the option waiting for a value, and whether `--` was
passed. -/
structure Reading where
  got : Gathered
  awaiting : Option String
  afterDashes : Bool

namespace Signature

def find? (sig : Signature) (name : String) : Option OptionSpec :=
  sig.options.find? (·.name == name)

/-- Whether the query may still come. -/
def queryOpen (sig : Signature) (g : Gathered) : Bool := sig.takesQuery && g.query.isNone

/-- Attaches a value to an option, checking it and how often the option was given. -/
def attach (sig : Signature) (g : Gathered) (name value : String) : Except Stop Gathered :=
  match sig.find? name with
  | none => .error .usage
  | some spec =>
    if !spec.accepts value then .error .usage
    else if spec.arity == .once && g.values.any (·.1 == name) then .error .usage
    else .ok { g with values := g.values ++ [(name, value)] }

def setFlag (g : Gathered) (name : String) : Except Stop Gathered :=
  if g.flags.contains name then .error .usage else .ok { g with flags := g.flags ++ [name] }

/-- A positional word: the query, if it may still come. -/
def positional (sig : Signature) (r : Reading) (w : String) : Except Stop Reading :=
  if r.awaiting.isSome then .error .usage
  else if sig.queryOpen r.got then .ok { r with got := { r.got with query := some w } }
  else .error .usage

/-- A word that is a value: it goes to the waiting option, else it is positional. -/
def value (sig : Signature) (r : Reading) (w : String) : Except Stop Reading :=
  match r.awaiting with
  | some name => do
    let g ← sig.attach r.got name w
    pure { r with got := g, awaiting := none }
  | none => sig.positional r w

/-- Help is given unless an option still waits for its value. -/
def askHelp (r : Reading) : Except Stop Reading :=
  if r.awaiting.isSome then .error .usage else .error .help

/-- A word `--body`, with `word` the whole word. -/
def long (sig : Signature) (r : Reading) (word body : String) : Except Stop Reading :=
  let (name, attached) := match splitFirst '=' body with
    | some (n, v) => (n, some v)
    | none => (body, none)
  match sig.find? name with
  | some spec =>
    if r.awaiting.isSome then .error .usage
    else match spec.arity, attached with
      | .flag, some _ => .error .usage
      | .flag, none => do pure { r with got := ← setFlag r.got name }
      | _, some v => do pure { r with got := ← sig.attach r.got name v }
      | _, none => .ok { r with awaiting := some name }
  | none =>
    if name == "help" then (if attached.isSome then .error .usage else askHelp r)
    else if sig.queryOpen r.got then sig.value r word
    else .error .usage

/-- A word `-letters`, with `word` the whole word; `h` is the only letter known. -/
def short (sig : Signature) (r : Reading) (word : String) (letters : List Char) : Except Stop Reading :=
  if sig.queryOpen r.got && letters.any (· != 'h') then sig.value r word
  else if letters.head? == some 'h' then askHelp r
  else .error .usage

def step (sig : Signature) (r : Reading) (w : String) : Except Stop Reading :=
  if r.afterDashes then sig.positional r w
  else if w == "--" then .ok { r with afterDashes := true }
  else match w.toList with
    | '-' :: '-' :: body => sig.long r w (String.ofList body)
    | '-' :: c :: cs => sig.short r w (c :: cs)
    | _ => sig.value r w

def gather (sig : Signature) (words : List String) : Except Stop Gathered := do
  let r ← words.foldlM sig.step ⟨⟨[], [], none⟩, none, false⟩
  if r.awaiting.isSome then .error .usage else pure r.got

end Signature

namespace Gathered

/-- The value given for a single option, if any. -/
def single? (g : Gathered) (name : String) : Option String :=
  (g.values.find? (·.1 == name)).map Prod.snd

def text (g : Gathered) (name : String) : String := (g.single? name).getD ""

def all (g : Gathered) (name : String) : List String :=
  (g.values.filter (·.1 == name)).map Prod.snd

def has (g : Gathered) (name : String) : Bool := g.flags.contains name

end Gathered

/-- A brand named by its label, or by its flag name in any ASCII case. -/
def brandOfWord (s : String) : Option Brand :=
  (Brand.ofLabel? s).orElse fun _ => Brand.ofName? (asciiUpper s)

def asciiLower (s : String) : String := String.ofList (s.toList.map Char.toLower)

/-- A live type named by its label, or by its name in any ASCII case. -/
def liveTypeOfWord (s : String) : Option LiveType :=
  (LiveType.ofLabel? s).orElse fun _ => LiveType.all.find? (asciiLower ·.name == asciiLower s)

def isPath (s : String) : Bool := !s.isEmpty

def anyText (name : String) : OptionSpec := ⟨name, .once, fun _ => true⟩

def dateText (name : String) : OptionSpec := ⟨name, .once, fun s => (readDate s).isSome⟩

def searchSignature : Signature :=
  ⟨[⟨"catalog", .once, isPath⟩, ⟨"settings", .once, isPath⟩, ⟨"count", .flag, fun _ => true⟩,
    ⟨"json", .flag, fun _ => true⟩], true⟩

def buildSignature : Signature :=
  ⟨[anyText "path", anyText "clip", anyText "song", anyText "concert", anyText "lyrics",
    anyText "remarks", anyText "min-duration", anyText "max-duration", dateText "date-from",
    dateText "date-to", dateText "created-from", dateText "created-to", dateText "updated-from",
    dateText "updated-to", ⟨"brand", .many, fun s => (brandOfWord s).isSome⟩,
    ⟨"type", .many, fun s => (liveTypeOfWord s).isSome⟩, ⟨"performer", .many, fun _ => true⟩],
    false⟩

def statsSignature : Signature := ⟨[⟨"catalog", .once, isPath⟩], false⟩

/-- What the program is asked to do. -/
inductive Command where
  /-- Runs a query over a catalog, printing the count, JSON, or one line per clip. -/
  | search (query catalog : String) (settings : Option String) (count json : Bool)
  /-- Writes a search form as query text. -/
  | build (form : Form)
  /-- Prints figures about a catalog. -/
  | stats (catalog : String)
  /-- No subcommand: a hint is printed. -/
  | idle

inductive Topic where
  | main
  | search
  | build
  | stats
  | help
  deriving DecidableEq, Repr

/-- What the words ask for. -/
inductive Invocation where
  | run (c : Command)
  | help (t : Topic)
  | version
  | usage

/-- The search form named by the words of `build`; every value was checked on reading. -/
def formOf (g : Gathered) : Form :=
  let date (name : String) : Option Date := (g.single? name).bind readDate
  { path := g.text "path", clipName := g.text "clip", songTitle := g.text "song",
    concertName := g.text "concert", lyrics := g.text "lyrics", remarks := g.text "remarks",
    minDuration := g.text "min-duration", maxDuration := g.text "max-duration",
    concertDateFrom := date "date-from", concertDateTo := date "date-to",
    createdFrom := date "created-from", createdTo := date "created-to",
    updatedFrom := date "updated-from", updatedTo := date "updated-to",
    brands := ((g.all "brand").filterMap brandOfWord).foldl (fun s b => s.insert b) .empty,
    liveTypes := (g.all "type").filterMap liveTypeOfWord,
    performers := g.all "performer" }

/-- What a subcommand's words ask for, given how reading them ended. -/
def settle (topic : Topic) (read : Except Stop Gathered) (make : Gathered → Option Command) :
    Invocation :=
  match read with
  | .error .help => .help topic
  | .error .usage => .usage
  | .ok g => match make g with
    | some c => .run c
    | none => .usage

/-- The command `search` asks for: exactly one of the two output flags at most, and both the
query and the catalog. -/
def searchOf (g : Gathered) : Option Command :=
  if g.has "count" && g.has "json" then none
  else match g.query, g.single? "catalog" with
    | some q, some c => some (.search q c (g.single? "settings") (g.has "count") (g.has "json"))
    | _, _ => none

/-- The topic of `help` followed by these words. -/
def helpTopic : List String → Option Topic
  | [] => some .main
  | ["search"] => some .search
  | ["build"] => some .build
  | ["stats"] => some .stats
  | ["help"] => some .help
  | _ => none

/-- Reads the words after the program's name. -/
def invocation : List String → Invocation
  | [] => .run .idle
  | "search" :: ws => settle .search (searchSignature.gather ws) searchOf
  | "build" :: ws => settle .build (buildSignature.gather ws) fun g => some (.build (formOf g))
  | "stats" :: ws =>
    settle .stats (statsSignature.gather ws) fun g => (g.single? "catalog").map .stats
  | "help" :: ws => match helpTopic ws with
    | some t => .help t
    | none => .usage
  | "--" :: ws => if ws.isEmpty then .run .idle else .usage
  | "--help" :: _ => .help .main
  | "--version" :: _ => .version
  | w :: _ => match w.toList with
    | '-' :: 'h' :: _ => .help .main
    | '-' :: 'V' :: _ => .version
    | _ => .usage

end ClipSearch.Cli
