import ClipSearch.Text.Split
/-!
What a path holds, as the program sees it: nothing (with the system's reason), a directory, or
a file of some length whose bytes past those given are zero.

`Tree` is a small file system given by its files and directories, with a working directory;
`Tree.probe` resolves a path in it the way the system does: component by component from the
root or the working directory, `.` staying and `..` going up, a missing component or a file
used as a directory failing with the matching reason.
-/
namespace ClipSearch.Files

open ClipSearch.Text

/-- Why a path cannot be opened or read. -/
inductive OsError where
  | notFound | notDirectory | isDirectory
  deriving DecidableEq, Repr

def OsError.message : OsError → String
  | .notFound => "No such file or directory (os error 2)"
  | .notDirectory => "Not a directory (os error 20)"
  | .isDirectory => "Is a directory (os error 21)"

/-- A file: its first bytes and its length; bytes past those given are zero, and bytes past
the length are cut off. -/
structure FileBody where
  bytes : ByteArray
  size : Nat

def FileBody.data (f : FileBody) : ByteArray :=
  if f.size ≤ f.bytes.size then f.bytes.extract 0 f.size
  else f.bytes ++ ⟨Array.replicate (f.size - f.bytes.size) 0⟩

/-- The text of a file, if its bytes are valid UTF-8. -/
def FileBody.text? (f : FileBody) : Option String := String.fromUTF8? f.data

def FileBody.ofBytes (b : ByteArray) : FileBody := ⟨b, b.size⟩

/-- What a path holds. -/
inductive Probe where
  | missing (reason : OsError)
  | directory
  | file (body : FileBody)

/-- A small file system: files and directories by their absolute paths. -/
structure Tree where
  files : List (String × FileBody)
  directories : List String
  workingDirectory : String

/-- The components of a path, without empty ones. -/
def components (p : String) : List String :=
  (splitText "/" p).filter fun c => c != ""

def joinPath (cs : List String) : String := String.join (cs.map ("/" ++ ·))

namespace Tree

/-- Whether the absolute path is a directory: the root, an ancestor of a listed directory, or
a listed one. -/
def isDirectory (t : Tree) (cs : List String) : Bool :=
  t.directories.any fun d => (components d).take cs.length == cs

def fileAt? (t : Tree) (cs : List String) : Option FileBody :=
  (t.files.find? fun (p, _) => components p == cs).map Prod.snd

/-- Resolves a path, with `cur` the directory reached so far. -/
def walk (t : Tree) (cur : List String) : List String → Bool → Probe
  | [], trailingSlash =>
    match t.fileAt? cur with
    | some f => if trailingSlash then .missing .notDirectory else .file f
    | none => .directory
  | c :: rest, trailingSlash =>
    if c == "." then t.walk cur rest trailingSlash
    else if c == ".." then t.walk cur.dropLast rest trailingSlash
    else
      let next := cur ++ [c]
      if t.isDirectory next && (t.fileAt? next).isNone then t.walk next rest trailingSlash
      else match t.fileAt? next with
        | some f =>
          if rest.isEmpty then (if trailingSlash then .missing .notDirectory else .file f)
          else .missing .notDirectory
        | none => .missing .notFound

/-- What a path holds; a relative path starts at the working directory. -/
def probe (t : Tree) (path : String) : Probe :=
  if path.isEmpty then .missing .notFound
  else
    let start := if path.startsWith "/" then [] else components t.workingDirectory
    t.walk start (components path) (path.endsWith "/")

end Tree

end ClipSearch.Files
