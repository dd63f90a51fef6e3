import WasmEmbedding.Engine.Machine

/-! # Loads and stores

What the memory instructions do with the bytes that they move: a load makes an operand
of them, a store spells an operand in them, both the lowest byte first. Addresses do
not wrap: the offset of an instruction is added to its operand without bound.
-/
namespace WasmEmbedding

open Wasm Engine

namespace Wasm

/-- The operand that loaded bytes make; narrow forms are widened by a sign. -/
def Access.ofBytes (a : Access) (s : Sign) (bytes : List UInt8) : Operand :=
  let n := Memory.ofBytes bytes
  match a with
  | .int w => .ofInt w (BitVec.ofNat w.bits n)
  | .float w => .ofFloat w n
  | .narrow w l =>
    match s with
    | .unsigned => .ofInt w (BitVec.ofNat w.bits n)
    | .signed => .ofInt w ((BitVec.ofNat l.bits n).signExtend w.bits)

/-- The bytes that an operand leaves in memory. -/
def Access.toBytes? (a : Access) (x : Operand) : Option (List UInt8) :=
  match a with
  | .int w => (x.int? w).map fun b => Memory.toBytes a.bytes b.toNat
  | .float w => (x.float? w).map fun n => Memory.toBytes a.bytes n
  | .narrow w _ => (x.int? w).map fun b => Memory.toBytes a.bytes b.toNat

/-- The vector that loaded bytes make. -/
def VectorLoad.ofBytes (op : VectorLoad) (bytes : List UInt8) : BitVec 128 :=
  match op with
  | .full => BitVec.ofNat 128 (Memory.ofBytes bytes)
  | .widened target s =>
    Lanes.ofInts target
      ((Lanes.ints target.half s (BitVec.ofNat 128 (Memory.ofBytes bytes))).take target.count)
  | .splat l => Lanes.splat l (Memory.ofBytes bytes)
  | .zero _ => BitVec.ofNat 128 (Memory.ofBytes bytes)

/-- What an atomic update leaves, given what was there. -/
def AtomicUpdate.eval (op : AtomicUpdate) (old new : Nat) (bits : Nat) : Nat :=
  match op with
  | .add => (old + new) % Nat.pow 2 bits
  | .sub => (old + (Nat.pow 2 bits - new % Nat.pow 2 bits)) % Nat.pow 2 bits
  | .and => old &&& new
  | .or => old ||| new
  | .xor => old ^^^ new
  | .exchange => new

end Wasm

namespace Engine.Exec

/-- The unsigned number of an integer operand of either width. -/
def popNumber : Exec Nat := do
  match ← pop with
  | .i32 x => return x.toNat
  | .i64 x => return x.toNat
  | _ => stuck

/-- The operand of an access for an unsigned number. -/
def pushNumber (a : Access) (n : Nat) : Exec Unit :=
  push (a.ofBytes .unsigned (Memory.toBytes a.bytes n))

/-- Pops an address and adds the offset. -/
def popAddress (arg : MemArg) : Exec Nat := do return (← popWord).toNat + arg.offset

/-- The address of an atomic access must be aligned. -/
def checkAligned (address bytes : Nat) : Exec Unit := do
  if address % bytes ≠ 0 then trap .heapMisaligned

/-- Pops the address of an atomic access; its alignment is looked at before the bounds. -/
def popAligned (arg : MemArg) (bytes : Nat) : Exec Nat := do
  let address ← popAddress arg
  checkAligned address bytes
  return address

/-- Replaces a number in memory by another and pushes the old one. -/
def replaceNumber (memory address : Nat) (a : Access) (f : Nat → Nat) : Exec Unit := do
  let old := Memory.ofBytes (← readBytes memory address a.bytes)
  writeBytes memory address (Memory.toBytes a.bytes (f old))
  pushNumber a old

/-- An atomic instruction. Nobody else runs, so that nobody is woken and a wait ends
when its time is up. -/
def atomic (op : AtomicOp) (arg : MemArg) : Exec Unit := do
  let memory ← memoryAddress arg.memory
  match op with
  | .notify =>
    let _ ← popWord
    let address ← popAligned arg 4
    checkBytes memory address 4
    push (.i32 0)
  | .wait w =>
    let _ ← popNumber
    let expected ← popNumber
    let address ← popAddress arg
    if UInt32.size ≤ address then trap .memoryOutOfBounds
    let shared := (← ofOption (← get).store.memories[memory]?).shared
    if !shared then trap .atomicWaitNonSharedMemory
    checkAligned address (w.bits / 8)
    let found := Memory.ofBytes (← readBytes memory address (w.bits / 8))
    push (.i32 (if found = expected then 2 else 1))
  | .load a =>
    let address ← popAligned arg a.bytes
    push (a.ofBytes .unsigned (← readBytes memory address a.bytes))
  | .store a =>
    let x ← pop
    let address ← popAligned arg a.bytes
    writeBytes memory address (← ofOption (a.toBytes? x))
  | .update op a =>
    let new := (← popNumber) % Nat.pow 2 (8 * a.bytes)
    let address ← popAligned arg a.bytes
    replaceNumber memory address a fun old => op.eval old new (8 * a.bytes)
  | .compareExchange a =>
    let new ← popNumber
    let expected := (← popNumber) % Nat.pow 2 (8 * a.bytes)
    let address ← popAligned arg a.bytes
    replaceNumber memory address a fun old => if old = expected then new else old

/-- A load or a store. -/
def access (op : MemoryOp) (arg : MemArg) : Exec Unit := do
  match op with
  | .atomic op => atomic op arg
  | .load a s =>
    let address ← popAddress arg
    push (a.ofBytes s (← readBytes (← memoryAddress arg.memory) address a.bytes))
  | .store a =>
    let x ← pop
    let address ← popAddress arg
    writeBytes (← memoryAddress arg.memory) address (← ofOption (a.toBytes? x))
  | .vectorLoad op =>
    let address ← popAddress arg
    push (.v128 (op.ofBytes (← readBytes (← memoryAddress arg.memory) address op.bytes)))
  | .vectorStore =>
    let x ← popVector
    let address ← popAddress arg
    writeBytes (← memoryAddress arg.memory) address (Memory.toBytes 16 x.toNat)

/-- A move of one lane. -/
def moveLane (m : LaneMove) (l : Lane) (arg : MemArg) (lane : Nat) : Exec Unit := do
  let x ← popVector
  let address ← popAddress arg
  let memory ← memoryAddress arg.memory
  match m with
  | .load =>
    let bytes ← readBytes memory address (l.bits / 8)
    push (.v128 (Lanes.set l x lane (Memory.ofBytes bytes)))
  | .store => writeBytes memory address (Memory.toBytes (l.bits / 8) (Lanes.get l x lane))

end Engine.Exec

end WasmEmbedding
