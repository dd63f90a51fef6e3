import WasmEmbedding.Error

/-! # System interface environments

The arguments, environment strings and preopened directories that a guest starts
with. `Environment.ofStrings` accepts environment strings of the form `KEY=VALUE` and
preopens of the form `host:guest` or `path`; it keeps everything in order, and nothing
in an environment is changed afterwards but by appending preopens.
-/
namespace WasmEmbedding.Wasi

/-- The name that guests import the system interface from. -/
def moduleName : String := "wasi_snapshot_preview1"

/-- The two sides of the first occurrence of a character. -/
def splitOnce (sep : Char) : List Char → Option (List Char × List Char)
  | [] => none
  | c :: rest =>
    if c = sep then some ([], rest)
    else (splitOnce sep rest).map fun (a, b) => (c :: a, b)

/-- A directory of the host and the name the guest knows it by. -/
structure Preopen where
  host : String
  guest : String
  deriving DecidableEq, Repr

namespace Preopen

/-- A letter, a colon and a slash of either kind: the colon belongs to the path. -/
def startsWithDrive : List Char → Bool
  | c :: ':' :: slash :: _ => c.isAlpha && (slash == '\\' || slash == '/')
  | _ => false

/-- Splits a mapping at the first colon that is not part of a drive. -/
def split (mapping : List Char) : Option (List Char × List Char) :=
  if startsWithDrive mapping then
    (splitOnce ':' (mapping.drop 2)).map fun (a, b) => (mapping.take 2 ++ a, b)
  else splitOnce ':' mapping

/-- Reads `host:guest`, or a path that is the same on both sides. -/
def parse (mapping : String) : Except WasiError Preopen :=
  let (host, guest) := (split mapping.toList).getD (mapping.toList, mapping.toList)
  if host.isEmpty || guest.isEmpty then
    .error (.environmentError ("Invalid preopen '" ++ mapping ++ "'"))
  else .ok ⟨String.ofList host, String.ofList guest⟩

end Preopen

/-- An environment. -/
structure Environment where
  args : List String
  envs : List String
  preopens : List Preopen
  deriving DecidableEq, Repr, Inhabited

namespace Environment

/-- The environment with nothing in it. -/
def empty : Environment := ⟨[], [], []⟩

/-- The key and the value of an environment string. -/
def splitVariable (env : String) : Option (List Char × List Char) := splitOnce '=' env.toList

/-- An environment string has a key before its first equals sign. -/
def isVariable (env : String) : Bool :=
  match splitVariable env with
  | some (key, _) => !key.isEmpty
  | none => false

/-- The first of the strings that is no environment string is an error. -/
def checkVariables : List String → Except WasiError Unit
  | [] => .ok ()
  | env :: rest =>
    if isVariable env then checkVariables rest
    else .error (.environmentError ("Expected KEY=VALUE, got '" ++ env ++ "'"))

/-- An environment from texts; environment strings are held against their form before
preopens. -/
def ofStrings (args envs preopens : List String) : Except WasiError Environment := do
  checkVariables envs
  let preopens ← preopens.mapM Preopen.parse
  return ⟨args, envs, preopens⟩

/-- The value of the first environment string with a given key. -/
def get? (e : Environment) (key : String) : Option String :=
  (e.envs.filterMap splitVariable).findSome? fun (k, v) =>
    if k = key.toList then some (String.ofList v) else none

/-- Appends a preopened directory. -/
def push (e : Environment) (p : Preopen) : Environment :=
  { e with preopens := e.preopens ++ [p] }

end Environment

end WasmEmbedding.Wasi
