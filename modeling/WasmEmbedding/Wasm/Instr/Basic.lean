import WasmEmbedding.Wasm.Instr.Memory

/-! # Instructions

A function body is a tree: blocks, loops and conditionals hold their bodies. An `Op` is
an instruction without a body that goes on to the next one; the others decide where
execution goes.
-/
namespace WasmEmbedding.Wasm

/-- A literal. -/
inductive Literal where
  | i32 (bits : UInt32)
  | i64 (bits : UInt64)
  | f32 (bits : UInt32)
  | f64 (bits : UInt64)
  | v128 (bits : BitVec 128)
  deriving DecidableEq, Repr

/-- The type of a literal. -/
def Literal.type : Literal → ValType
  | .i32 _ => .i32
  | .i64 _ => .i64
  | .f32 _ => .f32
  | .f64 _ => .f64
  | .v128 _ => .v128

/-- The instructions that go on to the next one. -/
inductive Op where
  | nop
  | drop
  /-- One of two operands by a condition; the list of types may be left out. -/
  | select (types : Option (List ValType))
  | const (x : Literal)
  | numeric (op : NumericOp)
  | vector (op : VectorOp)
  | localGet (i : Nat) | localSet (i : Nat) | localTee (i : Nat)
  | globalGet (i : Nat) | globalSet (i : Nat)
  | memory (op : MemoryOp) (arg : MemArg)
  | laneMove (m : LaneMove) (l : Lane) (arg : MemArg) (lane : Nat)
  | atomicFence
  | memorySize (memory : Nat) | memoryGrow (memory : Nat)
  | memoryFill (memory : Nat)
  | memoryCopy (target source : Nat)
  | memoryInit (data memory : Nat)
  | dataDrop (data : Nat)
  | tableGet (table : Nat) | tableSet (table : Nat)
  | tableSize (table : Nat) | tableGrow (table : Nat) | tableFill (table : Nat)
  | tableCopy (target source : Nat)
  | tableInit (element table : Nat)
  | elemDrop (element : Nat)
  | refNull (heap : HeapType)
  | refIsNull
  | refFunc (i : Nat)
  deriving DecidableEq, Repr

/-- The type of a block: nothing, one result, or a function type of the module. -/
inductive BlockType where
  | empty
  | value (t : ValType)
  | type (index : Nat)
  deriving DecidableEq, Repr

/-- The instructions. Labels count the enclosing blocks from the inside. -/
inductive Instr where
  | op (o : Op)
  | unreachable
  | block (type : BlockType) (body : List Instr)
  | loop (type : BlockType) (body : List Instr)
  | conditional (type : BlockType) (onTrue onFalse : List Instr)
  | br (label : Nat)
  | brIf (label : Nat)
  | brTable (labels : List Nat) (otherwise : Nat)
  | ret
  | call (function : Nat)
  | callIndirect (type table : Nat)
  | returnCall (function : Nat)
  | returnCallIndirect (type table : Nat)
  deriving Repr, Inhabited

end WasmEmbedding.Wasm
