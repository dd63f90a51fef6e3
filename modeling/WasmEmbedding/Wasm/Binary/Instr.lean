import WasmEmbedding.Wasm.Binary.Type
import WasmEmbedding.Wasm.Instr.Basic

/-! # Instructions in binary modules

`expression` reads the instructions up to the end mark that closes them. Codes of one
byte and the codes behind the three lead bytes come from the lists beside the
instructions; what follows a code is read here.
-/
namespace WasmEmbedding.Wasm.Binary

/-- The most labels of one branch table. -/
def maxBranchTable : Nat := 128 * 1024

/-- The address of a memory instruction: flags for the alignment, in which one bit says
that a memory follows, and an offset. -/
def memArg : Reader MemArg := do
  let flags ← Reader.index
  let named := flags / 64 % 2 = 1
  let memory ← if named then Reader.index else pure 0
  let align := if named then flags - 64 else flags
  if 64 ≤ align then throw "malformed memop alignment: alignment too large"
  return ⟨align, ← Reader.index, memory⟩

/-- The index of a lane below a count. -/
def laneIndex (count : Nat) : Reader Nat := do
  let i := (← Reader.byte).toNat
  if i < count then return i else throw "invalid lane index"

/-- The type of a block. -/
def blockType : Reader BlockType := do
  let b ← Reader.peek
  if b = 0x40 then
    let _ ← Reader.byte
    return .empty
  else if 0x7B ≤ b ∧ b ≤ 0x7F ∨ 0x63 ≤ b ∧ b ≤ 0x65 ∨ (abstractHeap? b).isSome then
    return .value (← valType)
  else
    let n ← Reader.signed 33
    if n < 0 then throw "invalid function type" else return .type n.toNat

/-- The table of an indirect call; without reference types, a zero byte. -/
def calledTable (features : Features) : Reader Nat := do
  if features.referenceTypes then Reader.index
  else if (← Reader.byte) = 0 then return 0
  else throw "zero byte expected"

/-- The instructions behind the byte `0xFC`. -/
def miscellaneous : Reader Op := do
  let code ← Reader.index
  match NumericOp.saturating[code]? with
  | some op => return .numeric op
  | none =>
    match code with
    | 8 => return .memoryInit (← Reader.index) (← Reader.index)
    | 9 => return .dataDrop (← Reader.index)
    | 10 => return .memoryCopy (← Reader.index) (← Reader.index)
    | 11 => return .memoryFill (← Reader.index)
    | 12 => return .tableInit (← Reader.index) (← Reader.index)
    | 13 => return .elemDrop (← Reader.index)
    | 14 => return .tableCopy (← Reader.index) (← Reader.index)
    | 15 => return .tableGrow (← Reader.index)
    | 16 => return .tableSize (← Reader.index)
    | 17 => return .tableFill (← Reader.index)
    | _ => throw "unknown 0xfc subopcode"

/-- The instructions behind the byte `0xFD`. -/
def vectorial : Reader Op := do
  let code ← Reader.index
  if code = 12 then
    return .const (.v128 (BitVec.ofNat 128 (← Reader.littleEndian 16)))
  else if code = 13 then
    return .vector (.shuffle (← Reader.times (laneIndex 32) 16))
  else
    match VectorOp.coded.lookup code, VectorOp.codedLanes.lookup code,
      MemoryOp.codedVector.lookup code, LaneMove.coded.lookup code with
    | some op, _, _, _ => return .vector op
    | _, some op, _, _ =>
      let op := op (← Reader.byte).toNat
      if op.lanesInRange then return .vector op else throw "invalid lane index"
    | _, _, some op, _ => return .memory op (← memArg)
    | _, _, _, some (m, l) => return .laneMove m l (← memArg) (← laneIndex l.count)
    | _, _, _, _ => throw "unknown 0xfd subopcode"

/-- The instructions behind the byte `0xFE`. -/
def atomic : Reader Op := do
  let code ← Reader.index
  if code = 3 then
    if (← Reader.byte) = 0 then return .atomicFence
    else throw "nonzero byte after atomic.fence"
  else
    match AtomicOp.coded.lookup code with
    | some op => return .memory (.atomic op) (← memArg)
    | none => throw "unknown 0xfe subopcode"

/-- The instructions with codes of one byte that go on to the next one. -/
def plain (code : UInt8) : Reader Op := do
  match code with
  | 0x01 => return .nop
  | 0x1A => return .drop
  | 0x1B => return .select none
  | 0x1C => return .select (some (← Reader.vector valType))
  | 0x20 => return .localGet (← Reader.index)
  | 0x21 => return .localSet (← Reader.index)
  | 0x22 => return .localTee (← Reader.index)
  | 0x23 => return .globalGet (← Reader.index)
  | 0x24 => return .globalSet (← Reader.index)
  | 0x25 => return .tableGet (← Reader.index)
  | 0x26 => return .tableSet (← Reader.index)
  | 0x3F => return .memorySize (← Reader.index)
  | 0x40 => return .memoryGrow (← Reader.index)
  | 0x41 => return .const (.i32 (Int32.ofInt (← Reader.signed 32)).toUInt32)
  | 0x42 => return .const (.i64 (Int64.ofInt (← Reader.signed 64)).toUInt64)
  | 0x43 => return .const (.f32 (UInt32.ofNat (← Reader.littleEndian 4)))
  | 0x44 => return .const (.f64 (UInt64.ofNat (← Reader.littleEndian 8)))
  | 0xD0 => return .refNull (← heapType)
  | 0xD1 => return .refIsNull
  | 0xD2 => return .refFunc (← Reader.index)
  | 0xFC => miscellaneous
  | 0xFD => vectorial
  | 0xFE => atomic
  | code =>
    let n := code.toNat
    if n < MemoryOp.firstCode then throw "illegal opcode"
    else
      match MemoryOp.oneByte[n - MemoryOp.firstCode]? with
      | some op => return .memory op (← memArg)
      | none =>
        if n < NumericOp.firstCode then throw "illegal opcode"
        else
          match NumericOp.oneByte[n - NumericOp.firstCode]? with
          | some op => return .numeric op
          | none => throw "illegal opcode"

/-- An instruction without a body, given its first byte. -/
def leaf (features : Features) (code : UInt8) : Reader Instr := do
  match code with
  | 0x00 => return .unreachable
  | 0x0C => return .br (← Reader.index)
  | 0x0D => return .brIf (← Reader.index)
  | 0x0E =>
    let count ← Reader.index
    if maxBranchTable < count then throw "br_table size is out of bound"
    let labels ← Reader.times Reader.index count
    return .brTable labels (← Reader.index)
  | 0x0F => return .ret
  | 0x10 => return .call (← Reader.index)
  | 0x11 =>
    let type ← Reader.index
    return .callIndirect type (← calledTable features)
  | 0x12 => return .returnCall (← Reader.index)
  | 0x13 =>
    let type ← Reader.index
    return .returnCallIndirect type (← calledTable features)
  | code => return .op (← plain code)

/-- What closes a sequence of instructions. -/
inductive Closing where
  | finish
  | otherwise
  deriving DecidableEq, Repr

/-- Instructions up to what closes them, after those already read. Fuel bounds the
instructions; each has a byte at least. -/
def sequence (features : Features) : Nat → List Instr → Reader (List Instr × Closing)
  | 0, _ => throw "unexpected end"
  | fuel + 1, done => do
    let code ← Reader.byte
    if code = 0x0B then return (done.reverse, .finish)
    else if code = 0x05 then return (done.reverse, .otherwise)
    else if code = 0x02 ∨ code = 0x03 then
      let type ← blockType
      let (body, closing) ← sequence features fuel []
      if closing = .otherwise then throw "else found outside of an if block"
      sequence features fuel ((if code = 0x02 then .block type body else .loop type body) :: done)
    else if code = 0x04 then
      let type ← blockType
      let (onTrue, closing) ← sequence features fuel []
      if closing = .finish then
        sequence features fuel (.conditional type onTrue [] :: done)
      else
        let (onFalse, closing) ← sequence features fuel []
        if closing = .otherwise then throw "else found outside of an if block"
        sequence features fuel (.conditional type onTrue onFalse :: done)
    else
      let i ← leaf features code
      sequence features fuel (i :: done)

/-- Instructions up to the end mark that closes them. -/
def expression (features : Features) : Reader (List Instr) := fun bytes => do
  let ((body, closing), rest) ← sequence features (bytes.length + 1) [] bytes
  if closing = .otherwise then throw "else found outside of an if block"
  return (body, rest)

end WasmEmbedding.Wasm.Binary
