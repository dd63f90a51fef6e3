import WasmEmbedding.Engine.Access
import WasmEmbedding.Engine.Bulk
import WasmEmbedding.Engine.HostCall

/-! # Steps and runs

`Exec.step` takes a machine from one instruction to the next, and `Exec.run` repeats
it until the frame of the host has nothing left to do. Every instruction costs one but
those that only mark structure; cost is settled before calls, at the ends of functions
and where `unreachable` stops the guest. Fuel is looked at when a function is entered
and whenever a loop starts or starts again.
-/
namespace WasmEmbedding

namespace Wasm

/-- What an instruction costs. -/
def Instr.cost : Instr → Nat
  | .op .nop => 0
  | .op .drop => 0
  | .block _ _ => 0
  | .loop _ _ => 0
  | .unreachable => 0
  | .ret => 0
  | _ => 1

end Wasm

namespace Engine.Exec

open Wasm

/-! ## Instructions that go on to the next one -/

/-- An instruction that goes on to the next one. -/
def op (o : Op) : Exec Unit := do
  match o with
  | .nop => pure ()
  | .drop => let _ ← pop
  | .select _ =>
    let condition ← popWord
    let b ← pop
    let a ← pop
    push (if condition = 0 then b else a)
  | .const x =>
    push <| match x with
      | .i32 b => .i32 b
      | .i64 b => .i64 b
      | .f32 b => .f32 b
      | .f64 b => .f64 b
      | .v128 b => .v128 b
  | .numeric op => push (← ofFault (op.eval (← popMany op.type.params.length)))
  | .vector op => push (← ofFault (op.eval (← popMany op.type.params.length)))
  | .localGet i => push (← ofOption (← get).frame.locals[i]?)
  | .localSet i =>
    let x ← pop
    modifyFrame fun f => { f with locals := f.locals.setIfInBounds i x }
  | .localTee i =>
    let x ← pop
    push x
    modifyFrame fun f => { f with locals := f.locals.setIfInBounds i x }
  | .globalGet i => push (← ofOption (← get).store.globals[(← globalAddress i)]?).value
  | .globalSet i =>
    let x ← pop
    let address ← globalAddress i
    modifyStore fun s =>
      { s with globals := s.globals.modify address fun g => { g with value := x } }
  | .memory op arg => access op arg
  | .laneMove m l arg lane => moveLane m l arg lane
  | .atomicFence => pure ()
  | .memorySize i => memorySize i
  | .memoryGrow i => memoryGrow i
  | .memoryFill i => memoryFill i
  | .memoryCopy i j => memoryCopy i j
  | .memoryInit data i => memoryInit data i
  | .dataDrop data => dataDrop data
  | .tableGet i => tableGet i
  | .tableSet i => tableSet i
  | .tableSize i => tableSize i
  | .tableGrow i => tableGrow i
  | .tableFill i => tableFill i
  | .tableCopy i j => tableCopy i j
  | .tableInit element i => tableInit element i
  | .elemDrop element => elemDrop element
  | .refNull heap => push (.zero (.ref ⟨true, heap⟩))
  | .refIsNull =>
    match ← pop with
    | .func r => push (.ofBool r.isNone)
    | .external r => push (.ofBool r.isNone)
    | _ => stuck
  | .refFunc i =>
    let address ← functionAddress i
    push ((← get).store.funcRef address)

/-! ## Fuel -/

/-- Settles the cost. -/
def settle : Exec Unit := modifyMeter Meter.settle

/-- Stops if no fuel is left. -/
def checkFuel : Exec Unit := do
  if (← get).meter.isExhausted then
    settle
    throw .outOfFuel

/-! ## Functions -/

/-- The locals of a body that is entered with arguments. -/
def localsOf (body : FunctionBody) (args : List Operand) : Array Operand :=
  body.locals.foldl
    (fun locals (count, type) => locals ++ Array.replicate count (Operand.zero type)) args.toArray

/-- Starts a body in a frame of its own, given the frames that wait for it. -/
def start (home : Nat) (type : FuncType) (body : FunctionBody) (args : List Operand)
    (callers : Machine → List Frame × Nat) : Exec Unit := do
  if maxDepth ≤ (callers (← get)).2 then trap .stackOverflow
  modify fun m =>
    let (frames, depth) := callers m
    { m with
      frame :=
        { home := some home, arity := type.results.length, locals := localsOf body args
          code := body.code }
      callers := frames
      depth := depth
      meter := m.meter.charge 1 }
  checkFuel

/-- Calls a function. -/
def call (address : Nat) (args : List Operand) : Exec Unit := do
  match (← get).store.functions[address]? with
  | some (.guest home type body) =>
    start home type body args fun m => (m.frame :: m.callers, m.depth + 1)
  | some (.host id signature) => pushMany (← callHost id signature args)
  | some (.system c) => pushMany (← callSystem c args)
  | none => stuck

/-- Ends the function with the results on top of its operands. -/
def leave : Exec Unit := do
  settle
  let m ← get
  match m.callers with
  | caller :: callers =>
    set { m with
      frame := { caller with values := m.frame.values.take m.frame.arity ++ caller.values }
      callers := callers
      depth := m.depth - 1 }
  | [] => modifyFrame fun f => { f with code := [], labels := [] }

/-- Calls a function in place of the one that runs. -/
def tailCall (address : Nat) (args : List Operand) : Exec Unit := do
  match (← get).store.functions[address]? with
  | some (.guest home type body) => start home type body args fun m => (m.callers, m.depth)
  | some (.host id signature) =>
    pushMany (← callHost id signature args)
    leave
  | some (.system c) =>
    pushMany (← callSystem c args)
    leave
  | none => stuck

/-- The arguments of a function on the stack. -/
def arguments (address : Nat) : Exec (List Operand) := do
  let type ← ofOption ((← get).store.functionType? address)
  popMany type.params.length

/-- The function of an element of a table; it must have the expected type. -/
def indirect (type table : Nat) : Exec Nat := do
  let index := (← popWord).toNat
  let t ← Exec.table (← tableAddress table)
  match t.items[index]? with
  | none => trap .tableOutOfBounds
  | some (.func (some r)) =>
    let expected ← ofOption (← home).types[type]?
    let found ← ofOption ((← get).store.functionType? r.index)
    if found = expected then return r.index else trap .badSignature
  | some (.func none) => trap .indirectCallToNull
  | some _ => stuck

/-! ## Blocks -/

/-- The counts of a block's parameters and results. -/
def blockArity : BlockType → Exec (Nat × Nat)
  | .empty => pure (0, 0)
  | .value _ => pure (0, 1)
  | .type i => do
    let t ← ofOption (← home).types[i]?
    return (t.params.length, t.results.length)

/-- Enters a block; a branch carries so many values. -/
def enter (params arity : Nat) (again : Option (List Instr)) (body : List Instr) : Exec Unit :=
  modifyFrame fun f => { f with
    values := f.values.take params
    labels := ⟨arity, again, f.code, f.values.drop params⟩ :: f.labels
    code := body }

/-- Branches to an enclosing block: out of it, or to the start of a loop. The block
outside all others is the function. -/
def branch (l : Nat) : Exec Unit := do
  let f := (← get).frame
  match f.labels.drop l with
  | [] => leave
  | label :: outer =>
    let carried := f.values.take label.arity
    match label.again with
    | some body =>
      modifyFrame fun f => { f with values := carried, labels := label :: outer, code := body }
      checkFuel
    | none =>
      modifyFrame fun f => { f with
        values := carried ++ label.below, labels := outer, code := label.after }

/-- Ends the innermost block with all its operands as results. -/
def endBlock (label : Label) (outer : List Label) : Exec Unit :=
  modifyFrame fun f => { f with
    values := f.values ++ label.below, labels := outer, code := label.after }

/-! ## Steps -/

/-- An instruction. -/
def instr (i : Instr) : Exec Unit := do
  match i with
  | .op o => op o
  | .unreachable =>
    settle
    trap .unreachable
  | .block type body =>
    let (params, results) ← blockArity type
    enter params results none body
  | .loop type body =>
    let (params, _) ← blockArity type
    enter params params (some body) body
    checkFuel
  | .conditional type onTrue onFalse =>
    let condition ← popWord
    let (params, results) ← blockArity type
    enter params results none (if condition = 0 then onFalse else onTrue)
  | .br l => branch l
  | .brIf l =>
    let condition ← popWord
    if condition ≠ 0 then branch l
  | .brTable ls l =>
    let index := (← popWord).toNat
    branch (ls[index]?.getD l)
  | .ret => leave
  | .call f =>
    settle
    let address ← functionAddress f
    call address (← arguments address)
  | .callIndirect type table =>
    settle
    let address ← indirect type table
    call address (← arguments address)
  | .returnCall f =>
    settle
    let address ← functionAddress f
    tailCall address (← arguments address)
  | .returnCallIndirect type table =>
    settle
    let address ← indirect type table
    tailCall address (← arguments address)

/-- One step. Says whether the host's frame has come to its end. -/
def step : Exec Bool := do
  let f := (← get).frame
  match f.code with
  | i :: rest =>
    modify fun m => { m with
      frame := { m.frame with code := rest }
      meter := m.meter.charge i.cost }
    instr i
    return false
  | [] =>
    match f.labels with
    | label :: outer =>
      endBlock label outer
      return false
    | [] =>
      if (← get).callers.isEmpty then return true
      leave
      return false

/-- Steps to the end, of which there are at most so many. -/
def run : Nat → Exec Unit
  | 0 => throw (.failure "no end in sight")
  | n + 1 => do if !(← step) then run n

/-- More steps than any computation takes. -/
def manySteps : Nat := Nat.pow 2 62

/-- Calls a function from the host and runs to its end. -/
def invoke (address : Nat) (args : List Operand) : Exec (List Operand) := do
  call address args
  run manySteps
  let results := (← get).frame.values.reverse
  modifyFrame fun f => { f with values := [] }
  return results

end Engine.Exec

end WasmEmbedding
