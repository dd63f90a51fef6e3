import WasmEmbedding.Config.Basic
import WasmEmbedding.Engine.Linker
import WasmEmbedding.Host.Basic
import WasmEmbedding.Statistics
import WasmEmbedding.Wasm.Image

/-! # Virtual machines

A `Vm` takes one main module at a time through the stages of `Stage`, and keeps a link
environment: modules and import objects that were registered under names, for the main
module to import from and for the host to call. What has become of the main module is
kept beside the stage: the image that was loaded, the module that it was compiled to, and
the instance that can be called. The entries of the link environment are found by name;
the order of their registration is kept apart from them.
-/
namespace WasmEmbedding

open Engine Wasm

/-- How far the main module has come. -/
inductive Stage where
  | created | loaded | validated | instantiated
  deriving DecidableEq, Repr

namespace Stage

/-- The name of a stage. -/
def name : Stage → String
  | .created => "created"
  | .loaded => "loaded"
  | .validated => "validated"
  | .instantiated => "instantiated"

/-- The name of a stage in descriptions. -/
def label : Stage → String
  | .created => "Created"
  | .loaded => "Loaded"
  | .validated => "Validated"
  | .instantiated => "Instantiated"

end Stage

/-- The instance of a main module. -/
structure ActiveInstance where
  module : Module
  /-- The instance has this index in the machine's store. -/
  index : Nat

/-- What a machine keeps of an import object that it has linked: the symbols of that
moment, and where the environment is kept. -/
structure LinkedImports where
  moduleName : String
  symbols : List (String × Host.Symbol)
  environment : Option Host.EnvironmentKey

/-- What a machine keeps of an import object, unless the object has been deleted. -/
def Host.ImportObject.snapshot (o : Host.ImportObject) : Except LinkError LinkedImports :=
  match o.symbols with
  | some symbols => .ok ⟨o.moduleName, symbols, o.environment⟩
  | none => .error (.importObjectDeleted o.moduleName)

/-- The exported functions of a module that have a signature, in order. -/
def Wasm.Module.functionList (m : Module) : List (String × Signature) :=
  m.exports.filterMap fun e => do
    let type ← m.exportedFunction? e
    match Signature.ofType? type with
    | .ok s => some (e.name, s)
    | .error _ => none

/-- The names of the exported functions of a module, in order. -/
def Wasm.Module.functionNames (m : Module) : List String :=
  m.exports.filterMap fun e => if e.kind = .function then some e.name else none

/-- An entry of the link environment. -/
inductive Registered where
  | module (m : Module)
  | imports (linked : LinkedImports) (functions : List (String × Signature))

/-- The functions of an entry. -/
def Registered.functions : Registered → List (String × Signature)
  | .module m => m.functionList
  | .imports _ fs => fs

/-- A virtual machine. -/
structure Vm where
  /-- The configuration of the engine. -/
  config : VmConfig
  store : Store
  linker : Linker := {}
  stage : Stage := .created
  /-- The image of the main module. -/
  loaded : Option Image := none
  /-- What the image has been compiled to. -/
  compiled : Option Module := none
  /-- The instance that can be called. -/
  active : Option ActiveInstance := none
  /-- The entries of the link environment under their names. -/
  registered : List (String × Registered) := []
  /-- The names of the link environment in the order of registration. -/
  linkOrder : List String := []
  /-- The built-in import object for the system interface. -/
  wasi : Option Host.ImportObject := none
  /-- The environment of the linked import object for the system interface, built in or
  not. -/
  environment : Option Host.EnvironmentKey := none
  /-- The store has seen an instantiation of a main module. -/
  stale : Bool := false
  statistics : Statistics

/-- A store for a machine of a configuration. -/
def Engine.Store.fresh (config : VmConfig) (id : StoreId) : Store where
  id
  memoryCap := config.engine.maxMemoryBytes
  heap := if config.engine.referenceTypes then .present else .absent

/-- Texts in order. -/
def sorted (names : List String) : List String := names.mergeSort fun a b => decide (a ≤ b)

/-- Named things in the order of their names. -/
def sortedByName {α : Type} (entries : List (String × α)) : List (String × α) :=
  entries.mergeSort fun a b => decide (a.1 ≤ b.1)

namespace Vm

/-- A machine with nothing linked. -/
def empty (config : VmConfig) (store : StoreId) : Vm where
  config
  store := .fresh config store
  statistics := .new config.statistics config.costLimit

/-- The entry of the link environment under a name. -/
def registered? (vm : Vm) (name : String) : Option Registered := vm.registered.lookup name

/-- The names of the link environment, sorted. -/
def moduleNames (vm : Vm) : List String := sorted (vm.registered.map Prod.fst)

/-- The names of the functions of the active instance, sorted. -/
def functionNames (vm : Vm) : List String :=
  match vm.active with
  | some a => sorted a.module.functionNames
  | none => []

/-- The names of the functions of a registered module, sorted. -/
def registeredFunctionNames (vm : Vm) (name : String) : List String :=
  match vm.registered? name with
  | some entry => sorted (entry.functions.map Prod.fst)
  | none => []

/-- The functions of the active instance, sorted by name. -/
def functionList (vm : Vm) : List (String × Signature) :=
  match vm.active with
  | some a => sortedByName a.module.functionList
  | none => []

/-- The signature of a function of the active instance. -/
def functionType? (vm : Vm) (name : String) : Option Signature := do
  (← vm.active).module.functionList.lookup name

/-- The signature of a function of a registered module. -/
def registeredFunctionType? (vm : Vm) (moduleName name : String) : Option Signature := do
  (← vm.registered? moduleName).functions.lookup name

/-- The guest log, the first entry first. -/
def logs (vm : Vm) : List Host.LogEntry := vm.store.context.logs

/-- The code that the last guest to end by asking for it has ended with. -/
def exitCode (vm : Vm) : Option UInt32 := vm.store.context.exitCode

/-- Appends an entry to the guest log. -/
def log (vm : Vm) (entry : Host.LogEntry) : Vm :=
  { vm with store := { vm.store with
      context := { vm.store.context with logs := vm.logs ++ [entry] } } }

/-- Empties the guest log. -/
def clearLogs (vm : Vm) : Vm :=
  { vm with store := { vm.store with context := { vm.store.context with logs := [] } } }

/-- The description of a machine. -/
def describe (vm : Vm) : String :=
  "Vm \x7b state: " ++ vm.stage.label ++ ", registered: " ++ Text.quotedList vm.moduleNames ++
    ", wasi: " ++ toString vm.wasi.isSome ++ ", .. \x7d"

/-- The description of what a machine has linked. -/
def describeStore (vm : Vm) : String :=
  "VmStore \x7b modules: " ++ Text.quotedList vm.moduleNames ++ ", active: " ++
    toString vm.active.isSome ++ " \x7d"

end Vm

end WasmEmbedding
