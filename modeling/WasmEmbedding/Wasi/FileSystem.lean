import WasmEmbedding.Error

/-! # The host's files

A tree of directories and files under absolute paths. Paths given to the host may be
relative to its working directory and hold dots; `FileSystem.locate` makes them
absolute, and says what is in the way.
-/
namespace WasmEmbedding.Wasi

/-- What is at a path. -/
inductive Node where
  | directory
  | file (bytes : List UInt8)
  deriving DecidableEq, Repr

/-- The parts of an absolute path. -/
abbrev Path := List String

/-- The text of an absolute path. -/
def Path.text (p : Path) : String := "/" ++ "/".intercalate p

/-- The directory of temporary files on a host that does not name another one. -/
def FileSystem.temporaryDirectory : Path := ["tmp"]

/-- The files and directories. -/
structure FileSystem where
  nodes : List (Path × Node)
  /-- The directory that relative paths start from. -/
  working : Path
  /-- The directory of temporary files. It is there. -/
  temporary : Path := FileSystem.temporaryDirectory
  /-- How many temporary files have been made. -/
  temporaries : Nat := 0
  deriving Repr, Inhabited

namespace FileSystem

/-- The directories that a host has from the start. -/
def standardDirectories : List Path :=
  [["bin"], ["boot"], ["dev"], ["etc"], ["home"], ["lib"], ["media"], ["mnt"], ["opt"],
    ["proc"], ["root"], ["run"], ["sbin"], ["srv"], ["sys"], ["tmp"], ["usr"], ["var"],
    ["usr", "bin"], ["usr", "lib"], ["usr", "local"], ["usr", "share"], ["var", "log"],
    ["var", "tmp"], ["work"]]

/-- A host without files. -/
def initial : FileSystem where
  nodes := standardDirectories.map fun p => (p, .directory)
  working := ["work"]

/-- What is at an absolute path; the root is a directory. -/
def get? (fs : FileSystem) (p : Path) : Option Node :=
  if p.isEmpty then some .directory else fs.nodes.lookup p

/-- Puts something at a path. -/
def put (fs : FileSystem) (p : Path) (n : Node) : FileSystem :=
  { fs with nodes := (p, n) :: fs.nodes.filter fun e => e.1 ≠ p }

/-- Takes away what is at a path. -/
def erase (fs : FileSystem) (p : Path) : FileSystem :=
  { fs with nodes := fs.nodes.filter fun e => e.1 ≠ p }

/-- Follows parts from a directory. Every part but the last must be a directory; the
answer is the absolute path, whether or not something is there. -/
def follow (fs : FileSystem) (current : Path) : List String → Except FileFault Path
  | [] => .ok current
  | "." :: rest => fs.follow current rest
  | ".." :: rest => fs.follow current.dropLast rest
  | part :: rest =>
    let next := current ++ [part]
    if rest.isEmpty then .ok next
    else match fs.get? next with
      | some .directory => fs.follow next rest
      | some (.file _) => .error .notADirectory
      | none => .error .notFound

/-- The parts of a path between its slashes. A slash at the end asks for a directory,
as a dot would. -/
def parts (path : String) : List String :=
  let all := (path.toList.splitOn '/').map String.ofList
  let named := all.filter fun p => !p.isEmpty
  if !named.isEmpty && all.getLast? = some "" then named ++ ["."] else named

/-- The absolute path of a path given to the host. -/
def locate (fs : FileSystem) (path : String) : Except FileFault Path :=
  if path.isEmpty then .error .notFound
  else fs.follow (if path.startsWith "/" then [] else fs.working) (parts path)

/-- The content of a file. -/
def read (fs : FileSystem) (path : String) : Except FileFault (List UInt8) := do
  match fs.get? (← fs.locate path) with
  | some (.file bytes) => return bytes
  | some .directory => throw .isADirectory
  | none => throw .notFound

/-- Writes a file; its directory must exist. -/
def write (fs : FileSystem) (path : String) (bytes : List UInt8) : Except FileFault FileSystem := do
  let p ← fs.locate path
  match fs.get? p with
  | some .directory => throw .isADirectory
  | _ =>
    match fs.get? p.dropLast with
    | some .directory => return fs.put p (.file bytes)
    | _ => throw .notFound

/-- The absolute path of a directory that is to be opened. -/
def openDirectory (fs : FileSystem) (path : String) : Except FileFault Path := do
  let p ← fs.locate path
  match fs.get? p with
  | some .directory => return p
  | some (.file _) => throw .notADirectory
  | none => throw .notFound

/-- Makes a temporary file of a new name. Names are numbered here; which name it is makes
no difference. -/
def writeTemporary (fs : FileSystem) (start finish : String) (bytes : List UInt8) :
    Path × FileSystem :=
  let digits := toString fs.temporaries
  let name := start ++ "".pushn '0' (6 - digits.length) ++ digits ++ finish
  let p := fs.temporary ++ [name]
  (p, { fs.put p (.file bytes) with temporaries := fs.temporaries + 1 })

end FileSystem

end WasmEmbedding.Wasi
