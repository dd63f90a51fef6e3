import WasmEmbedding.Engine.Compute
import WasmEmbedding.Engine.Store
import WasmEmbedding.Host.Basic

/-! # The machine

A `Machine` is a computation under way: the store it works on, the host, the frame of
the function that runs, and the frames of its callers. A `Frame` keeps the operands of
the innermost block apart from those below it, which its `Label` keeps until the block
ends. `Exec` is one piece of a computation; if it stops, for a reason that `Stop`
names, the machine stays as it was when that happened.
-/
namespace WasmEmbedding.Engine

open Wasm

/-- Why a computation stops before its end. -/
inductive Stop where
  | trap (code : TrapCode)
  | outOfFuel
  /-- The guest asked to end. -/
  | exit (code : UInt32)
  /-- A host function failed, or ended the guest. -/
  | host (e : HostFunctionError)
  | registry (e : RegistryError)
  | value (e : ValueError)
  /-- Any other cause, in words. -/
  | failure (message : String)
  deriving DecidableEq, Repr

/-- What a computation has cost. The cost is settled at calls and at the ends of
functions; what has run up since is lost if the computation stops. -/
structure Meter where
  /-- The fuel there is, if anybody counts. -/
  budget : Option Nat
  running : Nat := 0
  settled : Nat := 0
  deriving DecidableEq, Repr

namespace Meter

/-- Runs up cost. -/
def charge (m : Meter) (cost : Nat) : Meter := { m with running := m.running + cost }

/-- Settles what has run up. -/
def settle (m : Meter) : Meter := { m with settled := m.running }

/-- Nothing is left of the fuel. -/
def isExhausted (m : Meter) : Bool := m.budget.any (· ≤ m.running)

/-- The fuel that has been spent; nothing if nobody counts. -/
def consumed (m : Meter) : Nat :=
  match m.budget with
  | some budget => min m.settled budget
  | none => 0

theorem consumed_le_budget (m : Meter) {budget : Nat} (h : m.budget = some budget) :
    m.consumed ≤ budget := by
  simp only [consumed, h]
  exact Nat.min_le_right _ _

end Meter

/-- A block that is under way. -/
structure Label where
  /-- The count of values that a branch carries. -/
  arity : Nat
  /-- The body of a loop, which a branch starts again. -/
  again : Option (List Instr)
  /-- What follows the block. -/
  after : List Instr
  /-- The operands below the block's. -/
  below : List Operand

/-- A function that is under way. -/
structure Frame where
  /-- The instance that the code belongs to; nobody's in the host's own frame. -/
  home : Option Nat := none
  /-- The count of results. -/
  arity : Nat := 0
  locals : Array Operand := #[]
  /-- The operands of the innermost block, the top first. -/
  values : List Operand := []
  /-- The blocks, the innermost first. -/
  labels : List Label := []
  /-- What is left of the innermost block. -/
  code : List Instr := []

/-- A computation under way. -/
structure Machine where
  store : Store
  host : Host
  meter : Meter
  frame : Frame
  callers : List Frame
  /-- The count of callers. -/
  depth : Nat

/-- A machine that the host is about to use. -/
def Machine.idle (store : Store) (host : Host) (budget : Option Nat) : Machine :=
  ⟨store, host, ⟨budget, 0, 0⟩, {}, [], 0⟩

/-- The depth of calls at which the stack is full. -/
def maxDepth : Nat := 16384

/-- A piece of a computation. -/
abbrev Exec (α : Type) := EStateM Stop Machine α

namespace Exec

/-- Stops with a trap. -/
def trap {α : Type} (code : TrapCode) : Exec α := throw (.trap code)

/-- Stops because the code is not well typed. -/
def stuck {α : Type} : Exec α := throw (.failure "ill-typed code")

/-- The result of a computation on operands. -/
def ofFault {α : Type} : Except Fault α → Exec α
  | .ok a => pure a
  | .error (.trap code) => trap code
  | .error .stuck => stuck

/-- Something that well-typed code has. -/
def ofOption {α : Type} : Option α → Exec α
  | some a => pure a
  | none => stuck

/-- Changes the frame. -/
@[inline] def modifyFrame (f : Frame → Frame) : Exec Unit :=
  modify fun m => { m with frame := f m.frame }

/-- Changes the store. -/
@[inline] def modifyStore (f : Store → Store) : Exec Unit :=
  modify fun m => { m with store := f m.store }

/-- Changes the meter. -/
@[inline] def modifyMeter (f : Meter → Meter) : Exec Unit :=
  modify fun m => { m with meter := f m.meter }

/-! ## Operands -/

/-- Pushes an operand. -/
def push (x : Operand) : Exec Unit := modifyFrame fun f => { f with values := x :: f.values }

/-- Pops an operand. -/
def pop : Exec Operand := do
  match (← get).frame.values with
  | x :: rest =>
    modifyFrame fun f => { f with values := rest }
    return x
  | [] => stuck

/-- Pops a 32-bit integer. -/
def popWord : Exec UInt32 := do
  match ← pop with
  | .i32 x => return x
  | _ => stuck

/-- Pops a vector. -/
def popVector : Exec (BitVec 128) := do
  match ← pop with
  | .v128 x => return x
  | _ => stuck

/-- Pops operands; the one pushed last comes last. -/
def popMany (n : Nat) : Exec (List Operand) := do
  let values := (← get).frame.values
  if n ≤ values.length then
    modifyFrame fun f => { f with values := values.drop n }
    return (values.take n).reverse
  else stuck

/-- Pushes operands, the first one first. -/
def pushMany (xs : List Operand) : Exec Unit :=
  modifyFrame fun f => { f with values := xs.reverse ++ f.values }

/-! ## Addresses -/

/-- The instance that the code belongs to. -/
def home : Exec Instance := do
  let m ← get
  ofOption (m.frame.home.bind fun i => m.store.instances[i]?)

/-- The address of a function. -/
def functionAddress (i : Nat) : Exec Nat := do ofOption (← home).functions[i]?

/-- The address of a table. -/
def tableAddress (i : Nat) : Exec Nat := do ofOption (← home).tables[i]?

/-- The address of a memory. -/
def memoryAddress (i : Nat) : Exec Nat := do ofOption (← home).memories[i]?

/-- The address of a global. -/
def globalAddress (i : Nat) : Exec Nat := do ofOption (← home).globals[i]?

/-- A table of the store. -/
def table (address : Nat) : Exec Table := do ofOption (← get).store.tables[address]?

/-- Changes a table of the store. -/
def modifyTable (address : Nat) (f : Table → Table) : Exec Unit :=
  modifyStore fun s => { s with tables := s.tables.modify address f }

/-- The bounds of a memory hold a run of bytes, or the computation traps. -/
def checkBytes (address start count : Nat) : Exec Unit := do
  match (← get).store.memories[address]? with
  | some memory => if memory.covers start count then pure () else trap .memoryOutOfBounds
  | none => stuck

/-- Bytes of a memory. -/
def readBytes (address start count : Nat) : Exec (List UInt8) := do
  match (← get).store.memories[address]? with
  | some memory =>
    match memory.read start count with
    | some bytes => return bytes
    | none => trap .memoryOutOfBounds
  | none => stuck

/-- Changes a memory of the store. -/
def modifyMemory (address : Nat) (f : Memory → Memory) : Exec Unit :=
  modifyStore fun s => { s with memories := s.memories.modify address f }

/-- Replaces bytes of a memory. -/
def writeBytes (address start : Nat) (bytes : List UInt8) : Exec Unit := do
  checkBytes address start bytes.length
  modifyMemory address fun memory => memory.setBytes start bytes

end Exec

end WasmEmbedding.Engine
