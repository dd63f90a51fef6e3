import WasmEmbedding.Wasm.Instr.Vector

/-! # Memory instructions

Loads and stores by what they move: the type on the stack and the bytes in memory. The
atomic ones name a whole alignment; the others may be given any up to their size.
-/
namespace WasmEmbedding.Wasm

/-- Where a memory instruction goes: the exponent of its alignment, the offset that is
added to its address, and the memory. -/
structure MemArg where
  align : Nat
  offset : Nat
  memory : Nat
  deriving DecidableEq, Repr

/-- Loads and stores of numbers, and the narrow forms of integers. -/
inductive Access where
  | int (w : Width)
  | float (w : Width)
  /-- An integer of fewer bytes than its type. -/
  | narrow (w : Width) (l : Lane)
  deriving DecidableEq, Repr

namespace Access

/-- The type on the stack. -/
def type : Access → ValType
  | .int w => w.int
  | .float w => w.float
  | .narrow w _ => w.int

/-- The count of bytes in memory. -/
def bytes : Access → Nat
  | .int w => w.bits / 8
  | .float w => w.bits / 8
  | .narrow _ l => l.bits / 8

/-- The mark of a narrow form in mnemonics. -/
def mark : Access → String
  | .narrow _ l => toString l.bits
  | _ => ""

end Access

/-- What a vector load does with the bytes. -/
inductive VectorLoad where
  | full
  /-- Eight bytes, each lane widened to twice its width. -/
  | widened (target : Lane) (s : Sign)
  | splat (l : Lane)
  /-- The low lane; the others are zero. -/
  | zero (l : Lane)
  deriving DecidableEq, Repr

namespace VectorLoad

/-- The count of bytes in memory. -/
def bytes : VectorLoad → Nat
  | .full => 16
  | .widened _ _ => 8
  | .splat l => l.bits / 8
  | .zero l => l.bits / 8

/-- The mnemonic. -/
def text : VectorLoad → String
  | .full => "v128.load"
  | .widened l s =>
    "v128.load" ++ toString l.half.bits ++ "x" ++ toString l.count ++ "_" ++ s.text
  | .splat l => "v128.load" ++ toString l.bits ++ "_splat"
  | .zero l => "v128.load" ++ toString l.bits ++ "_zero"

end VectorLoad

/-- What an atomic update puts in place of what was there. -/
inductive AtomicUpdate where
  | add | sub | and | or | xor | exchange
  deriving DecidableEq, Repr

/-- The name of an update. -/
def AtomicUpdate.text : AtomicUpdate → String
  | .add => "add"
  | .sub => "sub"
  | .and => "and"
  | .or => "or"
  | .xor => "xor"
  | .exchange => "xchg"

/-- The atomic instructions on integers in memory. -/
inductive AtomicOp where
  | notify
  | wait (w : Width)
  | load (a : Access)
  | store (a : Access)
  | update (op : AtomicUpdate) (a : Access)
  | compareExchange (a : Access)
  deriving DecidableEq, Repr

namespace AtomicOp

/-- The bytes in memory, to which the address is aligned. -/
def bytes : AtomicOp → Nat
  | .notify => 4
  | .wait w => w.bits / 8
  | .load a => a.bytes
  | .store a => a.bytes
  | .update _ a => a.bytes
  | .compareExchange a => a.bytes

/-- The type, the address included. -/
def type : AtomicOp → FuncType
  | .notify => ⟨[.i32, .i32], [.i32]⟩
  | .wait w => ⟨[.i32, w.int, .i64], [.i32]⟩
  | .load a => ⟨[.i32], [a.type]⟩
  | .store a => ⟨[.i32, a.type], []⟩
  | .update _ a => ⟨[.i32, a.type], [a.type]⟩
  | .compareExchange a => ⟨[.i32, a.type, a.type], [a.type]⟩

/-- The mnemonic. -/
def text : AtomicOp → String
  | .notify => "memory.atomic.notify"
  | .wait w => "memory.atomic.wait" ++ toString w.bits
  | .load a => a.type.text ++ ".atomic.load" ++ unsignedMark a
  | .store a => a.type.text ++ ".atomic.store" ++ a.mark
  | .update op a => a.type.text ++ ".atomic.rmw" ++ a.mark ++ "." ++ op.text ++ narrowMark a
  | .compareExchange a => a.type.text ++ ".atomic.rmw" ++ a.mark ++ ".cmpxchg" ++ narrowMark a
where
  unsignedMark : Access → String
    | .narrow _ l => toString l.bits ++ "_u"
    | _ => ""
  narrowMark : Access → String
    | .narrow _ _ => "_u"
    | _ => ""

/-- The integers that atomic instructions move, in the order of their codes. -/
def accesses : List Access :=
  [.int .w32, .int .w64, .narrow .w32 .l8, .narrow .w32 .l16, .narrow .w64 .l8,
    .narrow .w64 .l16, .narrow .w64 .l32]

/-- The codes behind the byte `0xFE`, the fence apart. -/
def coded : List (Nat × AtomicOp) :=
  let family (n : Nat) (f : Access → AtomicOp) := accesses.mapIdx fun i a => (n + i, f a)
  [(0, notify), (1, wait .w32), (2, wait .w64)] ++
  family 0x10 load ++ family 0x17 store ++ family 0x1E (update .add) ++
  family 0x25 (update .sub) ++ family 0x2C (update .and) ++ family 0x33 (update .or) ++
  family 0x3A (update .xor) ++ family 0x41 (update .exchange) ++ family 0x48 compareExchange

end AtomicOp

/-- The instructions that move data between the stack and a memory. -/
inductive MemoryOp where
  /-- A load; narrow forms are widened by their sign. -/
  | load (a : Access) (s : Sign)
  | store (a : Access)
  | vectorLoad (op : VectorLoad)
  | vectorStore
  | atomic (op : AtomicOp)
  deriving DecidableEq, Repr

namespace MemoryOp

/-- The count of bytes in memory. -/
def bytes : MemoryOp → Nat
  | .load a _ => a.bytes
  | .store a => a.bytes
  | .vectorLoad op => op.bytes
  | .vectorStore => 16
  | .atomic op => op.bytes

/-- The type, the address included. -/
def type : MemoryOp → FuncType
  | .load a _ => ⟨[.i32], [a.type]⟩
  | .store a => ⟨[.i32, a.type], []⟩
  | .vectorLoad _ => ⟨[.i32], [.v128]⟩
  | .vectorStore => ⟨[.i32, .v128], []⟩
  | .atomic op => op.type

/-- The mnemonic. -/
def text : MemoryOp → String
  | .load (.narrow w l) s => w.int.text ++ ".load" ++ toString l.bits ++ "_" ++ s.text
  | .load a _ => a.type.text ++ ".load"
  | .store a => a.type.text ++ ".store" ++ a.mark
  | .vectorLoad op => op.text
  | .vectorStore => "v128.store"
  | .atomic op => op.text

/-- The code of the first of `oneByte`. -/
def firstCode : Nat := 0x28

/-- The loads and stores with one-byte codes, in the order of their codes. -/
def oneByte : List MemoryOp :=
  let narrow (w : Width) (l : Lane) :=
    [load (.narrow w l) .signed, load (.narrow w l) .unsigned]
  [load (.int .w32) .unsigned, load (.int .w64) .unsigned, load (.float .w32) .unsigned,
    load (.float .w64) .unsigned] ++
  narrow .w32 .l8 ++ narrow .w32 .l16 ++ narrow .w64 .l8 ++ narrow .w64 .l16 ++
  narrow .w64 .l32 ++
  [store (.int .w32), store (.int .w64), store (.float .w32), store (.float .w64),
    store (.narrow .w32 .l8), store (.narrow .w32 .l16), store (.narrow .w64 .l8),
    store (.narrow .w64 .l16), store (.narrow .w64 .l32)]

/-- The codes behind the byte `0xFD` of the vector loads and stores. -/
def codedVector : List (Nat × MemoryOp) := [
  (0, vectorLoad .full),
  (1, vectorLoad (.widened .l16 .signed)), (2, vectorLoad (.widened .l16 .unsigned)),
  (3, vectorLoad (.widened .l32 .signed)), (4, vectorLoad (.widened .l32 .unsigned)),
  (5, vectorLoad (.widened .l64 .signed)), (6, vectorLoad (.widened .l64 .unsigned)),
  (7, vectorLoad (.splat .l8)), (8, vectorLoad (.splat .l16)), (9, vectorLoad (.splat .l32)),
  (10, vectorLoad (.splat .l64)), (11, vectorStore),
  (92, vectorLoad (.zero .l32)), (93, vectorLoad (.zero .l64))]

end MemoryOp

/-- The instructions that move one lane between a vector and a memory. -/
inductive LaneMove where
  | load | store
  deriving DecidableEq, Repr

namespace LaneMove

/-- The mnemonic. -/
def text (m : LaneMove) (l : Lane) : String :=
  (match m with | .load => "v128.load" | .store => "v128.store") ++ toString l.bits ++ "_lane"

/-- The codes behind the byte `0xFD`. -/
def coded : List (Nat × LaneMove × Lane) :=
  [(84, load, .l8), (85, load, .l16), (86, load, .l32), (87, load, .l64),
    (88, store, .l8), (89, store, .l16), (90, store, .l32), (91, store, .l64)]

end LaneMove

end WasmEmbedding.Wasm
