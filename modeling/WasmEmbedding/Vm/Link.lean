import WasmEmbedding.Engine.Create
import WasmEmbedding.Engine.Instantiate
import WasmEmbedding.Vm.Action
import WasmEmbedding.Wasm.Typing.Module

/-! # The link environment

Registering a module instantiates it at once and links its exports under its name;
registering an import object links the symbols that it has at that moment. An entry is
refused before anything happens if its name is empty or taken. When a machine needs a
new store, `Action.rebuild` replays the entries in their order, each against those
before it; if that fails the old store stays, and so do its links.
-/
namespace WasmEmbedding

open Engine Wasm

/-- The wording of a stop. -/
def Engine.Stop.message : Stop → String
  | .trap code => "wasm trap: " ++ code.name
  | .outOfFuel => "wasm trap: all fuel consumed"
  | .exit code => "exited with status " ++ toString code
  | .host e => e.message
  | .registry e => e.message
  | .value e => e.message
  | .failure message => message

namespace Host

/-- The engine type of a table. -/
def HostTable.type (t : HostTable) : TableType where
  element := match t.element with
    | .funcRef => .funcRef
    | _ => .externRef
  limits := ⟨t.minimum.toNat, t.maximum.map UInt32.toNat⟩
  table64 := false
  shared := false

/-- The null that a table is filled with. -/
def HostTable.null (t : HostTable) : Operand :=
  match t.element with
  | .funcRef => .func none
  | _ => .external none

/-- The engine type of a memory. -/
def HostMemory.type (m : HostMemory) : MemoryType where
  limits := ⟨m.minimum.toNat, m.maximum.map UInt32.toNat⟩
  memory64 := false
  shared := false
  pageSizeLog := none

/-- The engine type of a global. -/
def HostGlobal.type (g : HostGlobal) : GlobalType := ⟨g.value.kind.toType, g.isMutable, false⟩

/-- The operand that a global starts with: the value is encoded as a list of one, and a
zero stands in for a list that comes back empty. -/
def HostGlobal.initial (g : HostGlobal) (heap : ExternHeap) : Except ValueError Operand := do
  let operands ← Value.encode heap [g.value]
  return operands.getLast?.getD (.i32 0)

/-- Makes the item of a symbol in a store, or says why the store refuses it. -/
def Symbol.materialize (s : Store) : Symbol → Except Refusal (Item × Store)
  | .function id signature =>
    let (a, s) := s.addFunction (.host id signature)
    .ok (.function a, s)
  | .table t => do
    let (a, s) ← s.newTable t.type t.null
    return (.table a, s)
  | .memory m => do
    let (a, s) ← s.newMemory m.type
    return (.memory a, s)
  | .global g => do
    let x ← (g.initial s.heap).mapError .unsupported
    let (a, s) ← s.newGlobal g.type x
    return (.global a, s)

end Host

namespace LinkedImports

/-- Defines symbols in order; the first that cannot be defined is the error. -/
def defineFrom (moduleName : String) :
    List (String × Host.Symbol) → Store × Linker → Except LinkError (Store × Linker)
  | [], r => .ok r
  | (name, symbol) :: rest, (store, linker) => do
    let refuse {α : Type} (reason : String) : Except LinkError α :=
      .error (.incompatible moduleName name reason)
    match symbol.materialize store with
    | .error refusal => refuse refusal.message
    | .ok (item, store) =>
      match linker.define moduleName name item with
      | none => refuse "defined twice"
      | some linker => defineFrom moduleName rest (store, linker)

/-- The functions of the system interface in a store, under their names. -/
def systemItems : List Wasi.Syscall → Store → List (String × Item) × Store
  | [], s => ([], s)
  | c :: rest, s =>
    let (a, s) := s.addFunction (.system c)
    let (items, s) := systemItems rest s
    ((c.name, .function a) :: items, s)

/-- Defines everything that an import object had when it was linked. -/
def define (l : LinkedImports) (store : Store) (linker : Linker) :
    Except RuntimeError (Store × Linker) :=
  match l.environment with
  | some _ =>
    let (items, store) := systemItems Wasi.Syscall.all store
    match linker.defineAll Wasi.moduleName items with
    | some linker => .ok (store, linker)
    | none => .error (.wasi (.initializationFailed "defined twice"))
  | none => (defineFrom l.moduleName l.symbols (store, linker)).mapError .link

end LinkedImports

namespace Vm

/-- The functions that are linked under a module name. -/
def linkedFunctions (vm : Vm) (moduleName : String) : List (String × Signature) :=
  (vm.linker.itemsOf moduleName).filterMap fun (name, item) => do
    let type ← vm.store.functionType? (← item.function?)
    match Signature.ofType? type with
    | .ok s => some (name, s)
    | .error _ => none

namespace Action

/-- A name that can be registered. -/
def checkName (name : String) : Action Unit := do
  if name.isEmpty then throw (.link .emptyModuleName)
  if ((← vm).registered? name).isSome then throw (.link (.duplicateModule name))

/-- Validates an image with the engine's features. -/
def compile (image : Image) : Action Module := do
  ofExcept .validation (image.validate (← vm).config.engine.features)

/-- Makes an instance of a module against the link environment. The fuel that this takes
is counted whatever comes of it. -/
def instance? (m : Module) : Action Nat := do
  let vm ← vm
  let (outcome, fuel) ← compute do
    match vm.linker.resolve (← get).store m with
    | .ok items => Exec.instantiate vm.config.engine.bulkMemory m items
    | .error reason => throw (.failure reason)
  modifyVm fun vm => { vm with statistics := vm.statistics.recordInstantiation fuel }
  ofExcept (fun stop => .instantiation stop.message) outcome

/-- Makes an instance of a registered module and links its exports under its name. -/
def instantiateRegistered (name : String) (m : Module) : Action Unit := do
  refresh
  let index ← instance? m
  let vm ← vm
  match vm.linker.defineAll name (vm.store.instances[index]?.getD {}).exports with
  | some linker => modifyVm fun vm => { vm with linker }
  | none => throw (.link (.incompatible name "" "defined twice"))

/-- Links an entry of the link environment again. -/
def replay (name : String) : Registered → Action Unit
  | .imports linked _ => do
    let vm ← vm
    let (store, linker) ← ofExcept id (linked.define vm.store vm.linker)
    modifyVm fun vm => { vm with store, linker }
  | .module m => instantiateRegistered name m

/-- Links every entry of the link environment again, in the order of registration. -/
def replayAll : Action Unit := do
  (← vm).linkOrder.forM fun name => do
    match (← vm).registered? name with
    | some entry => replay name entry
    | none => pure ()

/-- Puts a new store in place of the old one and links everything again. Logs and exit
code go over to the new store. -/
def rebuild : Action Unit := do
  let old ← vm
  let store ← freshStore
  modifyVm fun vm => { vm with store, linker := {} }
  try
    replayAll
  catch e =>
    modifyVm fun vm => { vm with store := old.store, linker := old.linker }
    throw e
  modifyContext fun c => { c with logs := old.logs, exitCode := old.exitCode }
  modifyVm fun vm => { vm with stale := false }

/-- Puts an entry under a name of the link environment, last in the order. -/
def enter (name : String) (entry : Registered) : Action Unit :=
  modifyVm fun vm => { vm with
    registered := (name, entry) :: vm.registered.filter fun e => e.1 ≠ name
    linkOrder := vm.linkOrder ++ [name] }

/-- Links an import object. -/
def link (o : Host.ImportObject) : Action Unit := do
  let linked ← ofExcept .link o.snapshot
  let before ← vm
  let (store, linker) ← ofExcept id (linked.define before.store before.linker)
  modifyVm fun vm => { vm with store, linker }
  match linked.environment with
  | some key =>
    modifyVm fun vm => { vm with environment := some key }
    refresh
    enter o.moduleName (.imports linked ((← vm).linkedFunctions Wasi.moduleName))
  | none => enter o.moduleName (.imports linked (Host.functionsOf linked.symbols))

/-- Registers an import object under its module name. -/
def registerImport (o : Host.ImportObject) : Action Unit := do
  checkName o.moduleName
  link o

/-- Registers a module under a name. -/
def registerModule (name : String) (image : Image) : Action Unit := do
  checkName name
  let m ← compile image
  instantiateRegistered name m
  enter name (.module m)

end Action

end Vm

end WasmEmbedding
