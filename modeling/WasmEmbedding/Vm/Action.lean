import WasmEmbedding.Engine.Control
import WasmEmbedding.Vm.Basic

/-! # Actions of machines

An `Action` is something that a machine does on a host. If it fails, machine and host
stay as they were when it failed. `Action.compute` lets the engine work on the
machine's store with the fuel that the cost limit leaves, and `Action.refresh` starts
a new session of the system interface.
-/
namespace WasmEmbedding

open Engine

namespace Vm

/-- A machine on its host. -/
structure Setting where
  vm : Vm
  host : Host

/-- Something that a machine does. -/
abbrev Action (α : Type) := EStateM RuntimeError Setting α

/-- Does something and answers what the machine and the host have become. -/
def act {α : Type} (vm : Vm) (host : Host) (x : Action α) :
    Except RuntimeError α × Vm × Host :=
  match EStateM.run x ⟨vm, host⟩ with
  | .ok a s => (.ok a, s.vm, s.host)
  | .error e s => (.error e, s.vm, s.host)

end Vm

namespace Vm.Action

/-- The machine. -/
def vm : Action Vm := do return (← get).vm

/-- Changes the machine. -/
def modifyVm (f : Vm → Vm) : Action Unit := modify fun s => { s with vm := f s.vm }

/-- Changes the host. -/
def modifyHost (f : Host → Host) : Action Unit := modify fun s => { s with host := f s.host }

/-- Changes the context that guests share. -/
def modifyContext (f : Context → Context) : Action Unit :=
  modifyVm fun vm => { vm with store := { vm.store with context := f vm.store.context } }

/-- An answer or its error. -/
def ofExcept {ε α : Type} (f : ε → RuntimeError) : Except ε α → Action α
  | .ok a => pure a
  | .error e => throw (f e)

/-- A new store for the machine. -/
def freshStore : Action Store := do
  let s ← get
  let (id, host) := s.host.newStore
  set { s with host }
  return .fresh s.vm.config id

/-- The fuel for the next computation, if the engine counts. -/
def budget : Action (Option Nat) := do
  let vm ← vm
  return if vm.config.meters then some vm.statistics.remainingBudget.toNat else none

/-- Lets the engine work on the machine's store, and answers what it has come to and the
fuel it has spent. -/
def compute {α : Type} (x : Exec α) : Action (Except Stop α × UInt64) := do
  let budget ← budget
  modifyGet fun s =>
    let host := s.host
    let vm := s.vm
    let settle (m : Machine) : Setting := ⟨{ vm with store := m.store }, m.host⟩
    match EStateM.run x (.idle vm.store host budget) with
    | .ok a m => ((.ok a, UInt64.ofNat m.meter.consumed), settle m)
    | .error e m => ((.error e, UInt64.ofNat m.meter.consumed), settle m)

/-- Starts a new session under the linked environment of the system interface, if there
is one, and forgets the exit code. -/
def refresh : Action Unit := do
  let s ← get
  match s.vm.environment with
  | none => pure ()
  | some key =>
    let session ← ofExcept .wasi (Wasi.Session.start s.host.files (s.host.environment key))
    modifyContext fun c => { c with session, exitCode := none }

end Vm.Action

end WasmEmbedding
