import WasmEmbedding.Vm.Link

/-! # The pipeline of the main module

Loading, validating, instantiating, and calling. Every operation looks at the stage
before it does anything. A machine whose store has seen a main module gets a new store
before the next one, so that instances do not pile up.
-/
namespace WasmEmbedding

open Engine Wasm

/-- Where a module comes from. -/
inductive Source where
  | file (path : String)
  | bytes (bytes : List UInt8)
  | image (image : Image)

/-- Loads the module of a source. -/
def Host.load (h : Host) : Source → Except RuntimeError Image
  | .file path =>
    match h.files.read path with
    | .ok bytes => (Image.ofBytes bytes).mapError .load
    | .error fault => .error (.load (.unreadable path fault))
  | .bytes bytes => (Image.ofBytes bytes).mapError .load
  | .image image => .ok image

namespace Vm.Action

/-- The module of a source. -/
def open? (source : Source) : Action Image := do ofExcept id ((← get).host.load source)

/-- Changes the stage. -/
def setStage (stage : Stage) : Action Unit := modifyVm fun vm => { vm with stage }

/-- Lets go of the main module. A store that cannot be rebuilt now is rebuilt at the next
instantiation. -/
def reset : Action Unit := do
  modifyVm fun vm => { vm with active := none, compiled := none, loaded := none }
  setStage .created
  if (← vm).stale then
    try rebuild catch _ => pure ()

/-- Lets go of the main module and restarts the link environment. -/
def cleanup : Action Unit := reset

/-- Loads a main module in place of the one before. -/
def load (source : Source) : Action Unit := do
  reset
  let image ← open? source
  modifyVm fun vm => { vm with loaded := some image }
  setStage .loaded

/-- The operation needs a main module that is not there. -/
def refuseStage {α : Type} (operation : String) : Action α := do
  throw (.wrongWorkflow operation (← vm).stage.name)

/-- Validates the main module. -/
def validate : Action Unit := do
  match (← vm).stage with
  | .created => refuseStage "validate"
  | .validated | .instantiated => pure ()
  | .loaded =>
    match (← vm).loaded with
    | none => refuseStage "validate"
    | some image =>
      let m ← compile image
      modifyVm fun vm => { vm with compiled := some m }
      setStage .validated

/-- Lets go of the instance of the main module, if there is one. -/
def deactivate : Action Unit := do
  if (← vm).active.isSome then
    modifyVm fun vm => { vm with active := none }
    setStage .validated

/-- Makes an instance of a validated main module. -/
def start (m : Module) : Action Unit := do
  deactivate
  if (← vm).stale then rebuild
  refresh
  modifyVm fun vm => { vm with stale := true }
  let index ← instance? m
  modifyVm fun vm => { vm with active := some ⟨m, index⟩ }
  setStage .instantiated

/-- Instantiates the main module, validating it first if need be. An instance that is
there already is replaced. -/
def instantiate : Action Unit := do
  if (← vm).stage = .created then refuseStage "instantiate"
  validate
  match (← vm).compiled with
  | none => refuseStage "instantiate"
  | some m => start m

/-- What the engine does for a call: the arguments go in, the results come out. -/
def exchange (address : Nat) (signature : Signature) (args : List Value) : Exec (List Value) := do
  let store := (← get).store
  let operands ← Exec.ofValue (Value.encode store.heap args)
  if operands.all (Operand.belongsTo store.id) then
    let results ← Exec.invoke address operands
    Exec.ofValue (Operand.decode results signature.returns)
  else throw (.failure "an argument is a reference of another store")

/-- What a call that has stopped comes to. A guest that asked to end, or that a host
function has ended, has ended well. -/
def settle (signature : Signature) (stop : Stop) : Action (List Value) := do
  let zeros := signature.returns.map Value.zero
  match stop with
  | .exit code =>
    modifyContext fun c => { c with exitCode := some code }
    return zeros
  | .host .terminate => return zeros
  | .host e => throw (.execution (.hostFunction e))
  | .registry e => throw (.registry e)
  | .value e => throw (.execution (.value e))
  | .outOfFuel => throw (.execution .costLimitExceeded)
  | .trap code => throw (.execution (.trap stop.message (some code)))
  | .failure message => throw (.execution (.trap message none))

/-- Calls a function of the machine's store. -/
def call (address : Nat) (args : List Value) : Action (List Value) := do
  let type := ((← vm).store.functionType? address).getD default
  let signature ← ofExcept (fun e => .execution (.value e)) (Signature.ofType? type)
  ofExcept (fun e => .execution (.value e)) (Value.check args signature.params)
  let (outcome, fuel) ← compute (exchange address signature args)
  modifyVm fun vm => { vm with statistics := vm.statistics.recordCall fuel 1 }
  match outcome with
  | .ok values => return values
  | .error stop => settle signature stop

/-- Calls an exported function of the main module. -/
def execute (name : String) (args : List Value) : Action (List Value) := do
  let vm ← vm
  if vm.stage ≠ .instantiated then throw (.execution .notInstantiated)
  let found : Option Nat := do
    (← vm.store.exported? (← vm.active).index name).function?
  match found with
  | some address => call address args
  | none => throw (.execution (.functionNotFound name))

/-- Calls a function of a registered module. -/
def executeRegistered (moduleName name : String) (args : List Value) : Action (List Value) := do
  let vm ← vm
  let found : Option Nat := do
    let _ ← vm.registered? moduleName
    (← vm.linker.get? moduleName name).function?
  match found with
  | some address => call address args
  | none => throw (.execution (.functionNotFound (moduleName ++ "." ++ name)))

/-- Loads, validates and instantiates a main module and calls one of its functions. -/
def run (source : Source) (name : String) (args : List Value) : Action (List Value) := do
  load source
  validate
  instantiate
  execute name args

/-- Registers the module of a source under a name. -/
def register (name : String) (source : Source) : Action Unit := do
  registerModule name (← open? source)

end Vm.Action

namespace Vm

/-- Links the built-in import object for the system interface. -/
def enableWasi (e : Wasi.Environment) : Action Unit := do
  let s ← get
  let (o, host) := s.host.newWasiObject e
  set { s with host }
  Action.link o
  Action.modifyVm fun vm => { vm with wasi := some o }

/-- A new machine. -/
def new (host : Host) (config : VmConfig) : Except RuntimeError Vm × Host :=
  let (id, host) := host.newStore
  match act (empty config id) host do
      if config.hostRegistrations.wasi then enableWasi .empty with
  | (.ok (), vm, host) => (.ok vm, host)
  | (.error e, _, host) => (.error e, host)

/-- A new machine from a configuration file, whose environment the built-in import
object starts with. -/
def ofConfigFile (host : Host) (file : ConfigFile) : Except RuntimeError Vm × Host :=
  match new host file.vm with
  | (.error e, host) => (.error e, host)
  | (.ok vm, host) =>
    match vm.wasi with
    | none => (.ok vm, host)
    | some o =>
      let w := file.wasi
      let replaced := do
        host.replaceEnvironment o (← Wasi.Environment.ofStrings w.args w.envs w.preopens)
      match replaced with
      | .ok host => (.ok vm, host)
      | .error e => (.error (.wasi e), host)

end Vm

end WasmEmbedding
