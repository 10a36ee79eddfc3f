import ClipSearch.Cli.Run
/-!
The program: reads the words it was given, looks at the paths they name, runs, and prints.
-/
namespace ClipSearch.Main

open ClipSearch.Cli ClipSearch.Files

/-- What a path holds on this system. -/
def probePath (path : String) : IO Probe := do
  try
    let bytes ← IO.FS.readBinFile path
    return .file (FileBody.ofBytes bytes)
  catch e =>
    return match e with
    | .noFileOrDirectory .. => .missing .notFound
    | .inappropriateType _ 20 _ => .missing .notDirectory
    | .inappropriateType .. => .directory
    | _ => .missing .notFound

end ClipSearch.Main

open ClipSearch.Cli ClipSearch.Files ClipSearch.Main

/-- Runs the program on its words with this system's files and home directory. -/
def main (words : List String) : IO UInt32 := do
  let home := (← IO.getEnv "HOME").getD ""
  let found ← (wordsPaths home words).mapM fun p => do return (p, ← probePath p)
  let look (p : String) : Probe := ((found.find? (·.1 == p)).map Prod.snd).getD (.missing .notFound)
  let e := runWords ⟨look, home⟩ words
  IO.print e.stdout
  IO.eprint e.stderr
  return e.status.toUInt32
