import WasmEmbedding.Wasm.Binary.Section
import WasmEmbedding.Wasm.Instr.Basic

/-! # Writing binary modules

What the readers of this folder take off the front of a byte string, written down. Of
the spellings that a reader admits the shortest is written: numbers in as few bytes as
they need, `funcref` and `externref` in their one-byte forms, the first memory left out
of an address. An instruction that no code stands for has no written form.
-/
namespace WasmEmbedding.Wasm.Binary.Write

/-- An unsigned number. -/
def unsigned (n : Nat) : List UInt8 :=
  if n < 128 then [UInt8.ofNat n] else UInt8.ofNat (n % 128 + 128) :: unsigned (n / 128)
termination_by n
decreasing_by omega

/-- A signed number. -/
def signed (n : Int) : List UInt8 :=
  if -64 ≤ n ∧ n < 64 then [UInt8.ofNat (n % 128).toNat]
  else UInt8.ofNat ((n % 128).toNat + 128) :: signed (n / 128)
termination_by n.natAbs
decreasing_by omega

/-- So many bytes of a number, lowest first. -/
def littleEndian : Nat → Nat → List UInt8
  | 0, _ => []
  | count + 1, n => UInt8.ofNat n :: littleEndian count (n / 256)

/-- A count and that many things. -/
def vector (items : List (List UInt8)) : List UInt8 := unsigned items.length ++ items.flatten

/-- A size and that many bytes. -/
def sized (bytes : List UInt8) : List UInt8 := unsigned bytes.length ++ bytes

/-- A name. -/
def name (s : String) : List UInt8 := sized (Text.Utf8.encode s)

/-- A section: its number, its size and its content. -/
def framed (s : Section) : List UInt8 := s.id :: sized s.content

/-- The byte of an abstract heap type. -/
def abstractHeap : AbstractHeap → UInt8
  | .func => 0x70
  | .external => 0x6F
  | .any => 0x6E
  | .none => 0x71
  | .noExternal => 0x72
  | .noFunc => 0x73
  | .eq => 0x6D
  | .struct => 0x6B
  | .array => 0x6A
  | .i31 => 0x6C
  | .exception => 0x69
  | .noException => 0x74
  | .continuation => 0x68
  | .noContinuation => 0x75

/-- A heap type. -/
def heapType : HeapType → List UInt8
  | .abstract false h => [abstractHeap h]
  | .abstract true h => [0x65, abstractHeap h]
  | .concrete i => signed i

/-- A reference type. -/
def refType (r : RefType) : List UInt8 :=
  if r = .funcRef then [0x70]
  else if r = .externRef then [0x6F]
  else (if r.nullable then 0x63 else 0x64) :: heapType r.heap

/-- The type of an operand. -/
def valType : ValType → List UInt8
  | .i32 => [0x7F]
  | .i64 => [0x7E]
  | .f32 => [0x7D]
  | .f64 => [0x7C]
  | .v128 => [0x7B]
  | .ref r => refType r

/-- A list of types. -/
def valTypes (ts : List ValType) : List UInt8 := vector (ts.map valType)

/-- A function type. -/
def funcType (t : FuncType) : List UInt8 := 0x60 :: valTypes t.params ++ valTypes t.results

/-- The flags of a size range, on top of those given. -/
def limitFlags (l : Limits) (wide shared : Bool) (more : Nat) : UInt8 :=
  UInt8.ofNat (more + (if l.max.isSome then 1 else 0) + (if shared then 2 else 0) +
    (if wide then 4 else 0))

/-- The numbers of a size range. -/
def limits (l : Limits) : List UInt8 := unsigned l.min ++ (l.max.map unsigned).getD []

/-- A table type. -/
def tableType (t : TableType) : List UInt8 :=
  refType t.element ++ limitFlags t.limits t.table64 t.shared 0 :: limits t.limits

/-- A memory type. -/
def memoryType (t : MemoryType) : List UInt8 :=
  limitFlags t.limits t.memory64 t.shared (if t.pageSizeLog.isSome then 8 else 0) ::
    limits t.limits ++ (t.pageSizeLog.map unsigned).getD []

/-- A global type. -/
def globalType (t : GlobalType) : List UInt8 :=
  valType t.content ++
    [UInt8.ofNat ((if t.isMutable then 1 else 0) + (if t.shared then 2 else 0))]

/-- The number of a kind of imports and exports. -/
def externalKind : ExternalKind → UInt8
  | .function => 0
  | .table => 1
  | .memory => 2
  | .global => 3
  | .tag => 4

/-- The type of a tag: an attribute, which is zero, and a function type. -/
def tagType (typeIndex : Nat) : List UInt8 := 0 :: unsigned typeIndex

/-- What an import asks for. -/
def importType : ImportType → List UInt8
  | .function i => unsigned i
  | .table t => tableType t
  | .memory t => memoryType t
  | .global t => globalType t
  | .tag i => tagType i

/-- An import entry. -/
def importEntry (i : Import) : List UInt8 :=
  name i.moduleName ++ name i.name ++ externalKind i.type.kind :: importType i.type

/-- An export entry. -/
def exportEntry (e : Export) : List UInt8 := name e.name ++ externalKind e.kind :: unsigned e.index

/-- The address of a memory instruction. -/
def memArg (a : MemArg) : List UInt8 :=
  if a.memory = 0 then unsigned a.align ++ unsigned a.offset
  else unsigned (a.align + 64) ++ unsigned a.memory ++ unsigned a.offset

/-- The type of a block. -/
def blockType : BlockType → List UInt8
  | .empty => [0x40]
  | .value t => valType t
  | .type i => signed i

/-- A constant instruction. -/
def literal : Literal → List UInt8
  | .i32 bits => 0x41 :: signed bits.toInt32.toInt
  | .i64 bits => 0x42 :: signed bits.toInt64.toInt
  | .f32 bits => 0x43 :: littleEndian 4 bits.toNat
  | .f64 bits => 0x44 :: littleEndian 8 bits.toNat
  | .v128 bits => 0xFD :: unsigned 12 ++ littleEndian 16 bits.toNat

/-- The code that a list gives to an instruction. -/
def code? {α : Type} [DecidableEq α] (codes : List (Nat × α)) (x : α) : Option Nat :=
  (codes.find? fun entry => entry.2 = x).map Prod.fst

/-- The code of a numeric instruction. -/
def numeric (op : NumericOp) : Option (List UInt8) :=
  match NumericOp.oneByte.idxOf? op, NumericOp.saturating.idxOf? op with
  | some i, _ => some [UInt8.ofNat (NumericOp.firstCode + i)]
  | none, some i => some (0xFC :: unsigned i)
  | none, none => none

/-- The lane that a vector instruction names. -/
def lane? : VectorOp → Option Nat
  | .extract _ _ lane => some lane
  | .replace _ lane => some lane
  | _ => none

/-- A vector instruction that leaves memory alone. -/
def vectorial (op : VectorOp) : Option (List UInt8) :=
  match op with
  | .shuffle lanes => some (0xFD :: unsigned 13 ++ lanes.map UInt8.ofNat)
  | _ =>
    match lane? op with
    | some lane => do
      let n ← code? (VectorOp.codedLanes.map fun entry => (entry.1, entry.2 lane)) op
      return 0xFD :: unsigned n ++ [UInt8.ofNat lane]
    | none => do return 0xFD :: unsigned (← code? VectorOp.coded op)

/-- The code of a memory instruction. -/
def memory (op : MemoryOp) : Option (List UInt8) :=
  match op with
  | .atomic op => (code? AtomicOp.coded op).map fun n => 0xFE :: unsigned n
  | _ =>
    match MemoryOp.oneByte.idxOf? op with
    | some i => some [UInt8.ofNat (MemoryOp.firstCode + i)]
    | none => (code? MemoryOp.codedVector op).map fun n => 0xFD :: unsigned n

/-- An instruction behind the byte `0xFC`, by its code and its indices. -/
def miscellaneous (code : Nat) (indices : List Nat) : List UInt8 :=
  0xFC :: unsigned code ++ indices.flatMap unsigned

/-- An instruction with a one-byte code, by its code and its indices. -/
def indexed (code : UInt8) (indices : List Nat) : List UInt8 :=
  code :: indices.flatMap unsigned

/-- An instruction that goes on to the next one. -/
def op : Op → Option (List UInt8)
  | .nop => some [0x01]
  | .drop => some [0x1A]
  | .select none => some [0x1B]
  | .select (some ts) => some (0x1C :: valTypes ts)
  | .const x => some (literal x)
  | .numeric o => numeric o
  | .vector o => vectorial o
  | .localGet i => some (indexed 0x20 [i])
  | .localSet i => some (indexed 0x21 [i])
  | .localTee i => some (indexed 0x22 [i])
  | .globalGet i => some (indexed 0x23 [i])
  | .globalSet i => some (indexed 0x24 [i])
  | .memory o a => (memory o).map (· ++ memArg a)
  | .laneMove m l a lane =>
    (code? LaneMove.coded (m, l)).map fun n =>
      0xFD :: unsigned n ++ memArg a ++ [UInt8.ofNat lane]
  | .atomicFence => some [0xFE, 0x03, 0x00]
  | .memorySize m => some (indexed 0x3F [m])
  | .memoryGrow m => some (indexed 0x40 [m])
  | .memoryFill m => some (miscellaneous 11 [m])
  | .memoryCopy target source => some (miscellaneous 10 [target, source])
  | .memoryInit d m => some (miscellaneous 8 [d, m])
  | .dataDrop d => some (miscellaneous 9 [d])
  | .tableGet t => some (indexed 0x25 [t])
  | .tableSet t => some (indexed 0x26 [t])
  | .tableSize t => some (miscellaneous 16 [t])
  | .tableGrow t => some (miscellaneous 15 [t])
  | .tableFill t => some (miscellaneous 17 [t])
  | .tableCopy target source => some (miscellaneous 14 [target, source])
  | .tableInit e t => some (miscellaneous 12 [e, t])
  | .elemDrop e => some (miscellaneous 13 [e])
  | .refNull h => some (0xD0 :: heapType h)
  | .refIsNull => some [0xD1]
  | .refFunc i => some (indexed 0xD2 [i])

mutual

/-- An instruction. A conditional without instructions for the other case has no mark
for it either. -/
def instr : Instr → Option (List UInt8)
  | .op o => op o
  | .unreachable => some [0x00]
  | .block t body => do return 0x02 :: blockType t ++ (← instrs body) ++ [0x0B]
  | .loop t body => do return 0x03 :: blockType t ++ (← instrs body) ++ [0x0B]
  | .conditional t onTrue [] => do return 0x04 :: blockType t ++ (← instrs onTrue) ++ [0x0B]
  | .conditional t onTrue onFalse => do
    return 0x04 :: blockType t ++ (← instrs onTrue) ++ 0x05 :: (← instrs onFalse) ++ [0x0B]
  | .br l => some (indexed 0x0C [l])
  | .brIf l => some (indexed 0x0D [l])
  | .brTable ls l => some (0x0E :: vector (ls.map unsigned) ++ unsigned l)
  | .ret => some [0x0F]
  | .call f => some (indexed 0x10 [f])
  | .callIndirect ty t => some (indexed 0x11 [ty, t])
  | .returnCall f => some (indexed 0x12 [f])
  | .returnCallIndirect ty t => some (indexed 0x13 [ty, t])

/-- Instructions in a row. -/
def instrs : List Instr → Option (List UInt8)
  | [] => some []
  | i :: rest => do return (← instr i) ++ (← instrs rest)

end

end WasmEmbedding.Wasm.Binary.Write
