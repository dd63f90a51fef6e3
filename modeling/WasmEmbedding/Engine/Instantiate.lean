import WasmEmbedding.Engine.Control
import WasmEmbedding.Engine.Linker

/-! # Instantiation

`Exec.instantiate` makes an instance of a validated module from the items of its
imports: it adds what the module defines to the store, copies the active segments, and
calls the start function, for which the instance is the caller. What is in the store by
the time it stops stays there.
-/
namespace WasmEmbedding.Engine.Exec

open Wasm

/-- The value of a constant expression in an instance, given the operands so far. -/
def constant (s : Store) (home : Instance) : ConstExpr → List Operand → Exec Operand
  | [], [x] => pure x
  | .op (.const x) :: rest, stack =>
    constant s home rest <| (match x with
      | .i32 b => .i32 b
      | .i64 b => .i64 b
      | .f32 b => .f32 b
      | .f64 b => .f64 b
      | .v128 b => .v128 b) :: stack
  | .op (.refNull heap) :: rest, stack =>
    constant s home rest (.zero (.ref ⟨true, heap⟩) :: stack)
  | .op (.refFunc i) :: rest, stack => do
    let address ← ofOption home.functions[i]?
    constant s home rest (s.funcRef address :: stack)
  | .op (.globalGet i) :: rest, stack => do
    let g ← ofOption (home.globals[i]?.bind fun a => s.globals[a]?)
    constant s home rest (g.value :: stack)
  | .op (.numeric o) :: rest, y :: x :: stack => do
    let z ← ofFault (o.eval₂ x y)
    constant s home rest (z :: stack)
  | _, _ => stuck

/-- The value of a constant expression in an instance. -/
def eval (home : Instance) (e : ConstExpr) : Exec Operand := do
  constant (← get).store home e []

/-- The address or index that a constant expression gives. -/
def evalWord (home : Instance) (e : ConstExpr) : Exec Nat := do
  match ← eval home e with
  | .i32 x => return x.toNat
  | _ => stuck

/-- Adds something to the store. -/
def add {α : Type} (f : Store → α × Store) : Exec α :=
  modifyGet fun m =>
    let (a, store) := f m.store
    (a, { m with store })

/-- The instance of a module before anything but its imports is there. -/
def imported (m : Module) (items : List Item) : Instance where
  types := m.types.toArray
  functions := (items.filterMap fun | .function a => some a | _ => none).toArray
  tables := (items.filterMap fun | .table a => some a | _ => none).toArray
  memories := (items.filterMap fun | .memory a => some a | _ => none).toArray
  globals := (items.filterMap fun | .global a => some a | _ => none).toArray

/-- Adds the functions of a module. -/
def addFunctions (m : Module) (index : Nat) (i : Instance) : Exec Instance := do
  let types ← m.functions.mapM fun t => ofOption m.types[t]?
  let addresses ← (types.zip m.bodies).mapM fun (type, body) =>
    add fun s => s.addFunction (.guest index type body)
  return { i with functions := i.functions ++ addresses.toArray }

/-- Adds the tables of a module. -/
def addTables (m : Module) (i : Instance) : Exec Instance := do
  let addresses ← m.tables.mapM fun t => add fun s => s.addTable (.nulls t)
  return { i with tables := i.tables ++ addresses.toArray }

/-- Adds a memory, or stops if the store may not have it. -/
def addMemory (t : MemoryType) : Exec Nat := do
  match (← get).store.addMemory t with
  | some (address, store) =>
    modify fun m => { m with store }
    return address
  | none => throw (.failure "memory minimum size exceeds memory limits")

/-- Adds the memories of a module. -/
def addMemories (m : Module) (i : Instance) : Exec Instance := do
  let addresses ← m.memories.mapM addMemory
  return { i with memories := i.memories ++ addresses.toArray }

/-- Adds the globals of a module. -/
def addGlobals (m : Module) (i : Instance) : Exec Instance := do
  let addresses ← m.globals.mapM fun g => do
    let value ← eval i g.init
    add fun s => s.addGlobal ⟨g.type, value⟩
  return { i with globals := i.globals ++ addresses.toArray }

/-- The references of an element segment. -/
def references (i : Instance) (e : ElementSegment) : Exec (List Operand) :=
  e.items.mapM fun
    | .function f => do
      let address ← ofOption i.functions[f]?
      return (← get).store.funcRef address
    | .expression init => eval i init

/-- Adds the element segments of a module, active ones included. -/
def addElements (m : Module) (i : Instance) : Exec Instance := do
  let addresses ← m.elements.mapM fun e => do
    let items ← references i e
    add fun s => (s.elements.size, { s with elements := s.elements.push items })
  return { i with elements := addresses.toArray }

/-- Adds the data segments of a module, active ones included. -/
def addDatas (m : Module) (i : Instance) : Exec Instance := do
  let addresses ← m.datas.mapM fun d =>
    add fun s => (s.datas.size, { s with datas := s.datas.push d.bytes })
  return { i with datas := addresses.toArray }

/-- The item of an export. -/
def exportItem (i : Instance) (e : Export) : Exec (String × Item) := do
  let item ← match e.kind with
    | .function => do pure (.function (← ofOption i.functions[e.index]?))
    | .table => do pure (.table (← ofOption i.tables[e.index]?))
    | .memory => do pure (.memory (← ofOption i.memories[e.index]?))
    | .global => do pure (.global (← ofOption i.globals[e.index]?))
    | .tag => stuck
  return (e.name, item)

/-- Where an active element segment goes. -/
def elementTarget (i : Instance) (target : Nat) (offset : ConstExpr) : Exec (Nat × Nat) := do
  return (← ofOption i.tables[target]?, ← evalWord i offset)

/-- Where an active data segment goes. -/
def dataTarget (i : Instance) (target : Nat) (offset : ConstExpr) : Exec (Nat × Nat) := do
  return (← ofOption i.memories[target]?, ← evalWord i offset)

/-- Holds every active segment against the bounds before any is copied. -/
def checkSegments (m : Module) (i : Instance) : Exec Unit := do
  m.elements.forM fun e => do
    match e.mode with
    | .active target offset =>
      let (address, start) ← elementTarget i target offset
      checkItems address start e.items.length
    | _ => pure ()
  m.datas.forM fun d => do
    match d.mode with
    | .active target offset =>
      let (address, start) ← dataTarget i target offset
      checkBytes address start d.bytes.length
    | _ => pure ()

/-- Copies an element segment if it is active, and drops it unless it is passive. -/
def copyElement (i : Instance) (e : ElementSegment) (segment : Nat) : Exec Unit := do
  match e.mode with
  | .passive => pure ()
  | .declared => modifyStore fun s => { s with elements := s.elements.setIfInBounds segment [] }
  | .active target offset =>
    let (address, start) ← elementTarget i target offset
    writeItems address start (← ofOption (← get).store.elements[segment]?)
    modifyStore fun s => { s with elements := s.elements.setIfInBounds segment [] }

/-- Copies a data segment if it is active, and drops it unless it is passive. -/
def copyData (i : Instance) (d : DataSegment) (segment : Nat) : Exec Unit := do
  match d.mode with
  | .active target offset =>
    let (address, start) ← dataTarget i target offset
    writeBytes address start d.bytes
    modifyStore fun s => { s with datas := s.datas.setIfInBounds segment [] }
  | _ => pure ()

/-- Adds what a module defines, and the instance that is made of it and of the items of its
imports; answers the index of the instance as well. -/
def allocate (m : Module) (items : List Item) : Exec (Nat × Instance) := do
  let index ← add fun s => (s.instances.size, { s with instances := s.instances.push {} })
  let i ← addFunctions m index (imported m items)
  let i ← addTables m i
  let i ← addMemories m i
  let i ← addGlobals m i
  let i ← addElements m i
  let i ← addDatas m i
  let i := { i with exports := ← m.exports.mapM (exportItem i) }
  modifyStore fun s => { s with instances := s.instances.setIfInBounds index i }
  return (index, i)

/-- Copies the active segments. Without bulk memory, a segment that does not fit keeps every
other from being copied. -/
def copySegments (bulkMemory : Bool) (m : Module) (i : Instance) : Exec Unit := do
  if !bulkMemory then checkSegments m i
  (m.elements.zip i.elements.toList).forM fun (e, segment) => copyElement i e segment
  (m.datas.zip i.datas.toList).forM fun (d, segment) => copyData i d segment

/-- Calls the start function if there is one. -/
def callStart (m : Module) (index : Nat) (i : Instance) : Exec Unit := do
  match m.start with
  | some f =>
    modifyFrame fun frame => { frame with home := some index }
    let _ ← invoke (← ofOption i.functions[f]?) []
  | none => pure ()

/-- Makes an instance and answers its index. -/
def instantiate (bulkMemory : Bool) (m : Module) (items : List Item) : Exec Nat := do
  let (index, i) ← allocate m items
  copySegments bulkMemory m i
  callStart m index i
  return index

end WasmEmbedding.Engine.Exec
