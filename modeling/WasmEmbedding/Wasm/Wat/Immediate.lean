import WasmEmbedding.Wasm.Instr.Basic
import WasmEmbedding.Wasm.Wat.Type

/-! # Immediates of the text format

What follows the mnemonic of an instruction that goes on to the next one. `op?` finds
the instruction in the lists beside the instructions, by its mnemonic.
-/
namespace WasmEmbedding.Wasm.Wat

/-- A word that gives a value to a field, such as `offset=4`: the number, if that field
comes next. -/
def field? (bits : Nat) (key : String) : Items (Option Nat) := do
  match ← Items.peek? with
  | some (.word s) =>
    match s.splitOn "=" with
    | [k, v] =>
      if k ≠ key then return none
      let _ ← Items.word
      match Number.unsigned? bits v with
      | some n => return some n
      | none => throw "number out of range"
    | _ => return none
  | _ => return none

/-- The address of a memory instruction that moves so many bytes, to which it is aligned
if nothing else is written. -/
def memArg (names : Names) (bytes : Nat) : Items MemArg := do
  let memory ← names.indexOrFirst .memory
  let offset := (← field? 64 "offset").getD 0
  let align := (← field? 32 "align").getD bytes
  if align = Nat.pow 2 align.log2 then return ⟨align.log2, offset, memory⟩
  else throw "alignment must be a power of two"

/-- The number of a lane. -/
def lane : Items Nat := unsigned 8

/-- Whether an address comes before the lane: the number that comes next is the lane's
unless another number or a field of an address follows it. -/
def isAddressNext : Items Bool := fun items =>
  let isNumber (s : String) := (Number.integer? s).isSome
  match items with
  | .word a :: .word b :: _ =>
    return (!isNumber a || isNumber b || b.startsWith "offset=" || b.startsWith "align=", items)
  | .word a :: _ => return (!isNumber a, items)
  | _ => return (true, items)

/-- An instruction that moves one lane. -/
def laneMove (names : Names) (m : LaneMove) (l : Lane) : Items Op := do
  let bytes := l.bits / 8
  let arg ← if ← isAddressNext then memArg names bytes else pure ⟨bytes.log2, 0, 0⟩
  return .laneMove m l arg (← lane)

/-- An integer of so many bits. -/
def integer (bits : Nat) : Items Nat := do
  match Number.signed? bits (← Items.word) with
  | some n => return n
  | none => throw "integer out of range"

/-- The pattern of a float. -/
def float (w : Width) : Items Nat := do
  let f : Text.FloatFormat := match w with | .w32 => .single | .w64 => .double
  match Number.float? f (← Items.word) with
  | some n => return n
  | none => throw "float out of range"

/-- So many things in a row. -/
def times {α : Type} (item : Items α) : Nat → Items (List α)
  | 0 => return []
  | n + 1 => return (← item) :: (← times item n)

/-- A vector by its lanes, the first of which is lowest. -/
def vectorOf (lanes : List Nat) (bits : Nat) : BitVec 128 :=
  BitVec.ofNat 128 (lanes.foldr (fun lane acc => lane + Nat.pow 2 bits * acc) 0)

/-- The lanes of a vector, behind its shape. -/
def vectorLiteral : Items (BitVec 128) := do
  let ints (l : Lane) : Items (BitVec 128) := do
    return vectorOf (← times (integer l.bits) l.count) l.bits
  let floats (w : Width) : Items (BitVec 128) := do
    return vectorOf (← times (float w) (128 / w.bits)) w.bits
  match ← Items.word with
  | "i8x16" => ints .l8
  | "i16x8" => ints .l16
  | "i32x4" => ints .l32
  | "i64x2" => ints .l64
  | "f32x4" => floats .w32
  | "f64x2" => floats .w64
  | _ => throw "vector shape expected"

/-- Two indices of a kind, or none, which means the first twice. -/
def indexPair (names : Names) (s : Space) : Items (Nat × Nat) := do
  match ← Ref.read? with
  | some a => return (← liftM (names.resolve s a), ← names.index s)
  | none => return (0, 0)

/-- What a segment is copied to, which may be left out, and the segment: the segment
first. -/
def segmentAndTarget (names : Names) (segment target : Space) : Items (Nat × Nat) := do
  let a ← Ref.read
  match ← Ref.read? with
  | some b => return (← liftM (names.resolve segment b), ← liftM (names.resolve target a))
  | none => return (← liftM (names.resolve segment a), 0)

/-- The types of a selection's operands, if they are written. -/
def selectTypes (names : Names) : Items (Option (List ValType)) := do
  match ← Items.lists ["result"] fun _ => Items.each (valType names) with
  | [] => return none
  | ts => return some ts.flatten

/-- The instructions on the stack alone that have nothing behind their mnemonics. -/
def plainOps : List (String × Op) :=
  [("nop", .nop), ("drop", .drop), ("ref.is_null", .refIsNull),
    ("atomic.fence", .atomicFence)] ++
  (NumericOp.oneByte ++ NumericOp.saturating).map (fun o => (o.text, .numeric o)) ++
  VectorOp.coded.map (fun entry => (entry.2.text, .vector entry.2))

/-- The instructions that name a lane. -/
def laneOps : List (String × (Nat → VectorOp)) :=
  VectorOp.codedLanes.map fun entry => ((entry.2 0).text, entry.2)

/-- The instructions behind whose mnemonic an address stands. -/
def memoryOps : List (String × MemoryOp) :=
  let all := MemoryOp.oneByte ++ MemoryOp.codedVector.map Prod.snd ++
    AtomicOp.coded.map fun entry => MemoryOp.atomic entry.2
  all.map fun o => (o.text, o)

/-- The instructions that move one lane. -/
def laneMoves : List (String × LaneMove × Lane) :=
  LaneMove.coded.map fun entry => (LaneMove.text entry.2.1 entry.2.2, entry.2)

/-- The instructions that are found in lists, by their mnemonics. -/
def listedOp? (names : Names) (mnemonic : String) : Items (Option Op) := do
  if let some o := plainOps.lookup mnemonic then return some o
  else if let some o := memoryOps.lookup mnemonic then
    return some (.memory o (← memArg names o.bytes))
  else if let some o := laneOps.lookup mnemonic then return some (.vector (o (← lane)))
  else if let some (m, l) := laneMoves.lookup mnemonic then return some (← laneMove names m l)
  else return none

/-- An instruction that goes on to the next one, by its mnemonic: reads what follows. -/
def op? (scope : Scope) (mnemonic : String) : Items (Option Op) := do
  let names := scope.names
  match mnemonic with
  | "select" => return some (.select (← selectTypes names))
  | "i32.const" => return some (.const (.i32 (UInt32.ofNat (← integer 32))))
  | "i64.const" => return some (.const (.i64 (UInt64.ofNat (← integer 64))))
  | "f32.const" => return some (.const (.f32 (UInt32.ofNat (← float .w32))))
  | "f64.const" => return some (.const (.f64 (UInt64.ofNat (← float .w64))))
  | "v128.const" => return some (.const (.v128 (← vectorLiteral)))
  | "i8x16.shuffle" => return some (.vector (.shuffle (← times lane 16)))
  | "local.get" => return some (.localGet (← scope.localIndex))
  | "local.set" => return some (.localSet (← scope.localIndex))
  | "local.tee" => return some (.localTee (← scope.localIndex))
  | "global.get" => return some (.globalGet (← names.index .global))
  | "global.set" => return some (.globalSet (← names.index .global))
  | "memory.size" => return some (.memorySize (← names.indexOrFirst .memory))
  | "memory.grow" => return some (.memoryGrow (← names.indexOrFirst .memory))
  | "memory.fill" => return some (.memoryFill (← names.indexOrFirst .memory))
  | "memory.copy" =>
    let (target, source) ← indexPair names .memory
    return some (.memoryCopy target source)
  | "memory.init" =>
    let (segment, target) ← segmentAndTarget names .data .memory
    return some (.memoryInit segment target)
  | "data.drop" => return some (.dataDrop (← names.index .data))
  | "table.get" => return some (.tableGet (← names.indexOrFirst .table))
  | "table.set" => return some (.tableSet (← names.indexOrFirst .table))
  | "table.size" => return some (.tableSize (← names.indexOrFirst .table))
  | "table.grow" => return some (.tableGrow (← names.indexOrFirst .table))
  | "table.fill" => return some (.tableFill (← names.indexOrFirst .table))
  | "table.copy" =>
    let (target, source) ← indexPair names .table
    return some (.tableCopy target source)
  | "table.init" =>
    let (segment, target) ← segmentAndTarget names .element .table
    return some (.tableInit segment target)
  | "elem.drop" => return some (.elemDrop (← names.index .element))
  | "ref.null" => return some (.refNull (← heapType names))
  | "ref.func" => return some (.refFunc (← names.index .function))
  | mnemonic => listedOp? names mnemonic

end WasmEmbedding.Wasm.Wat
