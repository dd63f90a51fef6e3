import WasmEmbedding.Vm.Pipeline

/-! # Handing data to a guest

`Action.runWithData` hands bytes to a guest through a file: it puts them into a new
temporary file, names the file in the guest's environment and preopens the directory it
is in. The file is gone when the run is over, however it went.
-/
namespace WasmEmbedding.Vm

/-- The key of the environment string that names the file. -/
def dataKey : String := "WasmEdge_DATA_TO_CALLEE"

/-- An environment that also names a file and preopens its directory. -/
def stagedEnvironment (args envs preopens : List String) (file : Wasi.Path) :
    Except WasiError Wasi.Environment := do
  let e ← Wasi.Environment.ofStrings args (envs ++ [dataKey ++ "=" ++ file.text]) preopens
  let directory := Wasi.Path.text file.dropLast
  return e.push ⟨directory, directory⟩

namespace Action

/-- Makes a temporary file. -/
def writeTemporary (bytes : List UInt8) : Action Wasi.Path := do
  let s ← get
  let (path, files) := s.host.files.writeTemporary "tmp." ".bin" bytes
  set { s with host := { s.host with files } }
  return path

/-- Takes a file away. -/
def removeFile (path : Wasi.Path) : Action Unit :=
  modifyHost fun h => { h with files := h.files.erase path }

/-- Runs a function of a guest that finds data in a file. -/
def runWithData (source : Source) (name : String) (data : List UInt8)
    (args envs preopens : List String) (params : List Value) : Action (List Value) := do
  match (← vm).wasi with
  | none => throw (.wasi .notEnabled)
  | some o =>
    let path ← writeTemporary data
    try
      let e ← ofExcept .wasi (stagedEnvironment args envs preopens path)
      let host ← ofExcept .wasi ((← get).host.replaceEnvironment o e)
      modifyHost fun _ => host
      run source name params
    finally
      removeFile path

end Action

end WasmEmbedding.Vm
