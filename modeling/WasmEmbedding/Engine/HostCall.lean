import WasmEmbedding.Engine.Machine
import WasmEmbedding.Wasi.Process

/-! # Calls that leave the guest

A guest calls host functions and functions of the system interface like any other. Of
a host function the store has only the number, so each call looks the number up; the
body is then a `Program`, which `Exec.answer` runs against the host and against the
memory that the caller exports. What a body returns is held against its signature
before the guest sees it.
-/
namespace WasmEmbedding.Engine.Exec

open Host Wasi

/-- The memory that the calling instance exports. -/
def callerMemory : Exec (Option Nat) := do
  let m ← get
  return m.frame.home.bind m.store.callerMemory?

/-- Why a host function gets at no memory. -/
def noMemory : HostFunctionError := .memoryAccess "caller exports no memory"

/-- Why a host function cannot read or write there. -/
def outOfBounds (verb : String) (count : Nat) (offset : UInt32) : HostFunctionError :=
  .memoryAccess (verb ++ " " ++ toString count ++ " bytes at " ++ toString offset ++
    ": out of bounds memory access")

/-- The memory that host functions may use; shared ones are out of their reach. -/
def hostMemory : Exec (Option (Nat × Memory)) := do
  match ← callerMemory with
  | some address =>
    let memory ← ofOption (← get).store.memories[address]?
    return if memory.shared then none else some (address, memory)
  | none => return none

/-- Bytes for a host function. -/
def hostRead (offset length : UInt32) : Exec (Except HostFunctionError (List UInt8)) := do
  match ← hostMemory with
  | some (_, memory) =>
    match memory.read offset.toNat length.toNat with
    | some bytes => return .ok bytes
    | none => return .error (outOfBounds "read" length.toNat offset)
  | none => return .error noMemory

/-- Bytes from a host function. -/
def hostWrite (offset : UInt32) (bytes : List UInt8) : Exec (Except HostFunctionError Unit) := do
  match ← hostMemory with
  | some (address, memory) =>
    match memory.write offset.toNat bytes with
    | some written =>
      modifyMemory address fun _ => written
      return .ok ()
    | none => return .error (outOfBounds "write" bytes.length offset)
  | none => return .error noMemory

/-- Changes the host. -/
def modifyHost (f : Host → Host) : Exec Unit := modify fun m => { m with host := f m.host }

/-- Appends an entry to the log. -/
def log (entry : LogEntry) : Exec Unit :=
  modifyStore fun s => { s with context := { s.context with logs := s.context.logs ++ [entry] } }

/-- Runs the body of a host function whose import object may share data. -/
def answer (key : Option ContextKey) : Program → Exec (List Value)
  | .finish (.ok values) => pure values
  | .finish (.error e) => throw (.host e)
  | .readMemory offset length next => do
    let r ← hostRead offset length
    answer key (next r)
  | .writeMemory offset bytes next => do
    let r ← hostWrite offset bytes
    answer key (next r)
  | .log entry next => do
    log entry
    answer key next
  | .inspect next => do
    let context := (← get).store.context
    answer key (next context.logs.length context.exitCode)
  | .shared next => do
    let host := (← get).host
    answer key (next (key.bind host.context?))
  | .share data next => do
    match key with
    | some key => modifyHost fun h => h.setContext key data
    | none => pure ()
    answer key next
  | .note text next => do
    modifyHost fun h => h.note text
    answer key next
  | .deleteObject name next => do
    modifyHost fun h => h.deleteObject name
    answer key next
  | .dropObject name next => do
    modifyHost fun h => h.dropObject name
    answer key next
  | .makeObject moduleName next => do
    let (made, host) := (← get).host.makeObject moduleName
    modifyHost fun _ => host
    answer key (next made)

/-- The result of the codec, or the end of the computation. -/
def ofValue {α : Type} : Except ValueError α → Exec α
  | .ok a => pure a
  | .error e => throw (.value e)

/-- Calls a host function. -/
def callHost (id : FunctionId) (signature : Signature) (args : List Operand) :
    Exec (List Operand) := do
  let entry ← match (← get).host.registry.lookup id with
    | .ok entry => pure entry
    | .error e => throw (.registry e)
  let values ← ofValue (Operand.decode args signature.params)
  let returned ← answer entry.context (entry.body values)
  ofValue (Value.check returned signature.returns)
  let store := (← get).store
  let results ← ofValue (Value.encode store.heap returned)
  if results.all (Operand.belongsTo store.id) then return results
  else throw (.failure "a host function returned a reference of another store")

/-- What a function of the system interface works on. -/
def process (memory : Memory) : Exec Process := do
  let m ← get
  return {
    session := m.store.context.session
    memory
    files := m.host.files
    stdin := m.host.stdin
    stdout := m.host.stdout
    stderr := m.host.stderr }

/-- Takes over what a function of the system interface has left. -/
def adopt (address : Nat) (p : Process) : Exec Unit :=
  modify fun m => { m with
    store := { m.store with
      memories := m.store.memories.modify address fun _ => p.memory
      context := { m.store.context with session := p.session } }
    host := { m.host with
      files := p.files
      stdin := p.stdin
      stdout := p.stdout
      stderr := p.stderr } }

/-- The unsigned number of an argument. -/
def argument : Operand → Nat
  | .i32 x => x.toNat
  | .i64 x => x.toNat
  | _ => 0

/-- Calls a function of the system interface. -/
def callSystem (c : Syscall) (args : List Operand) : Exec (List Operand) := do
  let address ← match ← callerMemory with
    | some address => pure address
    | none => throw (.failure "missing required memory export")
  let memory ← ofOption (← get).store.memories[address]?
  let (result, p) := (c.run (args.map argument)).run (← process memory)
  adopt address p
  match result with
  | .ok () => return c.type.results.map fun _ => .i32 0
  | .error (.errno e) => return [.i32 (UInt32.ofNat e.number)]
  | .error (.exit code) => throw (.exit code)
  | .error (.failure message) => throw (.failure message)

end WasmEmbedding.Engine.Exec
