import WasmEmbedding.Wasi.Environment
import WasmEmbedding.Wasi.FileSystem

/-! # Sessions

What a guest has while it runs under an environment: the arguments, the environment
strings, and open descriptors. The three standard streams come first, the preopened
directories in their order after them.
-/
namespace WasmEmbedding.Wasi

/-- What a descriptor stands for. -/
inductive Descriptor where
  | stdin | stdout | stderr
  /-- A directory; a preopened one has the name that the guest knows it by. -/
  | directory (path : Path) (guest : Option String)
  | file (path : Path) (position : Nat) (readable writable : Bool)
  deriving DecidableEq, Repr

/-- A session. -/
structure Session where
  args : List String
  envs : List String
  descriptors : List (Nat × Descriptor)
  deriving DecidableEq, Repr, Inhabited

namespace Session

/-- The session of a guest that has been given nothing. -/
def bare : Session := ⟨[], [], [(0, .stdin), (1, .stdout), (2, .stderr)]⟩

/-- Opens the preopened directories of an environment. -/
def openAll (fs : FileSystem) : List Preopen → Except WasiError (List Descriptor)
  | [] => .ok []
  | p :: rest =>
    match fs.openDirectory p.host with
    | .ok path => do return .directory path (some p.guest) :: (← openAll fs rest)
    | .error fault =>
      .error (.filesystemError
        ("preopen " ++ p.host ++ " as " ++ p.guest ++ ": " ++ fault.message))

/-- Starts a session under an environment. -/
def start (fs : FileSystem) (e : Environment) : Except WasiError Session := do
  let directories ← openAll fs e.preopens
  return ⟨e.args, e.envs, bare.descriptors ++ directories.mapIdx fun i d => (i + 3, d)⟩

/-- What a descriptor stands for. -/
def get? (s : Session) (fd : Nat) : Option Descriptor := s.descriptors.lookup fd

/-- Changes what a descriptor stands for. -/
def put (s : Session) (fd : Nat) (d : Descriptor) : Session :=
  { s with descriptors := (fd, d) :: s.descriptors.filter fun e => e.1 ≠ fd }

/-- Closes a descriptor. -/
def close (s : Session) (fd : Nat) : Session :=
  { s with descriptors := s.descriptors.filter fun e => e.1 ≠ fd }

/-- The least descriptor that is not open. -/
def free (s : Session) : Nat :=
  ((List.range (s.descriptors.length + 1)).find? fun fd => (s.get? fd).isNone).getD 0

end Session

end WasmEmbedding.Wasi
