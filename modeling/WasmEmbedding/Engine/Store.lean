import WasmEmbedding.Engine.Memory
import WasmEmbedding.Host.ImportObject
import WasmEmbedding.Value.Operand
import WasmEmbedding.Wasi.Session
import WasmEmbedding.Wasi.Syscall
import WasmEmbedding.Wasm.Module

/-! # Engine stores

A `Store` owns everything that instances are made of, each kind of thing in a row of
its own where it is found by its address, and the context that the guests of one
machine share. Nothing in a store goes away before the store does.
-/
namespace WasmEmbedding.Engine

open Wasm

/-- A table. -/
structure Table where
  element : RefType
  maximum : Option Nat
  items : Array Operand
  deriving Repr

namespace Table

/-- The most elements that a table may grow to, whatever its own maximum. -/
def sizeLimit : Nat := 10000000

/-- A table of null references. -/
def nulls (type : TableType) : Table :=
  ⟨type.element, type.limits.max, Array.replicate type.limits.min (.zero (.ref type.element))⟩

/-- A run of elements lies inside. -/
def covers (t : Table) (start count : Nat) : Bool := start + count ≤ t.items.size

/-- Appends elements if the table may have them. -/
def grow (t : Table) (count : Nat) (x : Operand) : Option Table :=
  let size := t.items.size + count
  if size ≤ sizeLimit && t.maximum.all (size ≤ ·) then
    some { t with items := t.items ++ Array.replicate count x }
  else none

/-- Puts elements one after the other. -/
def setItems (t : Table) (start : Nat) : List Operand → Table
  | [] => t
  | x :: rest => { t with items := t.items.setIfInBounds start x }.setItems (start + 1) rest

end Table

/-- A global. -/
structure Global where
  type : GlobalType
  value : Operand
  deriving Repr

/-- A function. -/
inductive Function where
  /-- A body of an instance's module. -/
  | guest (home : Nat) (type : FuncType) (body : FunctionBody)
  /-- A host function, known by its number. -/
  | host (id : Host.FunctionId) (signature : Signature)
  /-- A function of the system interface. -/
  | system (call : Wasi.Syscall)
  deriving Repr

/-- The type of a function. -/
def Function.type : Function → FuncType
  | .guest _ t _ => t
  | .host _ s => s.toType
  | .system c => c.type

/-- The address of something that can be imported. -/
inductive Item where
  | function (address : Nat)
  | table (address : Nat)
  | memory (address : Nat)
  | global (address : Nat)
  deriving DecidableEq, Repr

/-- The address, of a function. -/
def Item.function? : Item → Option Nat
  | .function a => some a
  | _ => none

/-- An instance of a module: the addresses of what its indices mean. -/
structure Instance where
  types : Array FuncType := #[]
  functions : Array Nat := #[]
  tables : Array Nat := #[]
  memories : Array Nat := #[]
  globals : Array Nat := #[]
  elements : Array Nat := #[]
  datas : Array Nat := #[]
  exports : List (String × Item) := []
  deriving Repr, Inhabited

/-- What the guests of a machine share. -/
structure Context where
  logs : List Host.LogEntry := []
  /-- The code of the guest that ended last by asking for it. -/
  exitCode : Option UInt32 := none
  session : Wasi.Session := .bare
  deriving Inhabited

/-- A store. -/
structure Store where
  id : StoreId
  /-- The most bytes that one memory may have. -/
  memoryCap : Option Nat
  heap : ExternHeap
  functions : Array Function := #[]
  tables : Array Table := #[]
  memories : Array Memory := #[]
  globals : Array Global := #[]
  instances : Array Instance := #[]
  /-- The references of element segments; none once a segment is dropped. -/
  elements : Array (List Operand) := #[]
  /-- The bytes of data segments; none once a segment is dropped. -/
  datas : Array (List UInt8) := #[]
  context : Context := {}

namespace Store

/-- The reference to a function of the store. -/
def funcRef (s : Store) (address : Nat) : Operand := .func (some ⟨s.id, address⟩)

/-- Adds a function. -/
def addFunction (s : Store) (f : Function) : Nat × Store :=
  (s.functions.size, { s with functions := s.functions.push f })

/-- Adds a table. -/
def addTable (s : Store) (t : Table) : Nat × Store :=
  (s.tables.size, { s with tables := s.tables.push t })

/-- A memory of a type may be made: the pages that it starts with are within the cap. -/
def admits (s : Store) (t : MemoryType) : Bool :=
  s.memoryCap.all (t.limits.min * pageBytes ≤ ·)

/-- Adds a memory if the store may have it. -/
def addMemory (s : Store) (t : MemoryType) : Option (Nat × Store) :=
  if s.admits t then
    some (s.memories.size,
      { s with memories := s.memories.push (.zeros t.limits.min t.limits.max t.shared) })
  else none

/-- Adds a global. -/
def addGlobal (s : Store) (g : Global) : Nat × Store :=
  (s.globals.size, { s with globals := s.globals.push g })

/-- The type of a function. -/
def functionType? (s : Store) (address : Nat) : Option FuncType :=
  s.functions[address]?.map Function.type

/-- What an instance exports under a name. -/
def exported? (s : Store) (instanceIndex : Nat) (name : String) : Option Item :=
  (s.instances[instanceIndex]?.getD {}).exports.lookup name

/-- The memory that an instance exports for host functions to use. -/
def callerMemory? (s : Store) (instanceIndex : Nat) : Option Nat :=
  match s.exported? instanceIndex "memory" with
  | some (.memory a) => some a
  | _ => none

end Store

end WasmEmbedding.Engine
