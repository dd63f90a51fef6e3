import WasmEmbedding.Engine.Machine

/-! # Whole runs of bytes and references

The instructions on memories and tables as a whole. Each looks at all bounds first and
moves a whole run or nothing. A dropped segment is an empty one.
-/
namespace WasmEmbedding.Engine.Exec

/-- The word that answers a refused growth. -/
def refused : Operand := .i32 0xFFFFFFFF

/-- Pops three words, the last one first. -/
def popThree : Exec (Nat × Nat × Nat) := do
  let count ← popWord
  let source ← popWord
  let target ← popWord
  return (target.toNat, source.toNat, count.toNat)

/-! ## Memories -/

/-- The count of pages. -/
def memorySize (i : Nat) : Exec Unit := do
  let memory ← ofOption (← get).store.memories[(← memoryAddress i)]?
  push (.i32 (UInt32.ofNat memory.pageCount))

/-- Grows a memory; answers the old count of pages. -/
def memoryGrow (i : Nat) : Exec Unit := do
  let count := (← popWord).toNat
  let address ← memoryAddress i
  let store := (← get).store
  let memory ← ofOption store.memories[address]?
  match memory.grow store.memoryCap count with
  | some grown =>
    modifyMemory address fun _ => grown
    push (.i32 (UInt32.ofNat memory.pageCount))
  | none => push refused

/-- Fills a run of bytes. -/
def memoryFill (i : Nat) : Exec Unit := do
  let (target, byte, count) ← popThree
  let address ← memoryAddress i
  checkBytes address target count
  modifyMemory address fun memory => memory.setRun target (UInt8.ofNat byte) count

/-- Copies a run of bytes as if it were read first. -/
def memoryCopy (i j : Nat) : Exec Unit := do
  let (target, source, count) ← popThree
  let bytes ← readBytes (← memoryAddress j) source count
  writeBytes (← memoryAddress i) target bytes

/-- A run of a list that lies inside. -/
def slice? {α : Type} (xs : List α) (start count : Nat) : Option (List α) :=
  if start + count ≤ xs.length then some ((xs.drop start).take count) else none

/-- The bytes of a data segment. -/
def data (i : Nat) : Exec (Nat × List UInt8) := do
  let address ← ofOption (← home).datas[i]?
  return (address, ← ofOption (← get).store.datas[address]?)

/-- Copies a run of bytes from a data segment. -/
def memoryInit (segment i : Nat) : Exec Unit := do
  let (target, source, count) ← popThree
  match slice? (← data segment).2 source count with
  | some bytes => writeBytes (← memoryAddress i) target bytes
  | none => trap .memoryOutOfBounds

/-- Drops a data segment. -/
def dataDrop (segment : Nat) : Exec Unit := do
  let (address, _) ← data segment
  modifyStore fun s => { s with datas := s.datas.setIfInBounds address [] }

/-! ## Tables -/

/-- An element of a table. -/
def tableGet (i : Nat) : Exec Unit := do
  let t ← table (← tableAddress i)
  match t.items[(← popWord).toNat]? with
  | some x => push x
  | none => trap .tableOutOfBounds

/-- The bounds of a table hold a run of elements, or the computation traps. -/
def checkItems (address start count : Nat) : Exec Unit := do
  if (← table address).covers start count then pure () else trap .tableOutOfBounds

/-- Replaces elements of a table. -/
def writeItems (address start : Nat) (items : List Operand) : Exec Unit := do
  checkItems address start items.length
  modifyTable address fun t => t.setItems start items

/-- Replaces an element of a table. -/
def tableSet (i : Nat) : Exec Unit := do
  let x ← pop
  let start ← popWord
  writeItems (← tableAddress i) start.toNat [x]

/-- The count of elements. -/
def tableSize (i : Nat) : Exec Unit := do
  push (.i32 (UInt32.ofNat (← table (← tableAddress i)).items.size))

/-- Grows a table; answers the old count of elements. -/
def tableGrow (i : Nat) : Exec Unit := do
  let count := (← popWord).toNat
  let x ← pop
  let address ← tableAddress i
  let t ← table address
  match t.grow count x with
  | some grown =>
    modifyTable address fun _ => grown
    push (.i32 (UInt32.ofNat t.items.size))
  | none => push refused

/-- Fills a run of elements. -/
def tableFill (i : Nat) : Exec Unit := do
  let count := (← popWord).toNat
  let x ← pop
  let start := (← popWord).toNat
  let address ← tableAddress i
  checkItems address start count
  modifyTable address fun t => t.setItems start (List.replicate count x)

/-- Copies a run of elements as if it were read first. -/
def tableCopy (i j : Nat) : Exec Unit := do
  let (target, source, count) ← popThree
  let t ← table (← tableAddress j)
  if t.covers source count then
    writeItems (← tableAddress i) target (t.items.extract source (source + count)).toList
  else trap .tableOutOfBounds

/-- The references of an element segment. -/
def element (i : Nat) : Exec (Nat × List Operand) := do
  let address ← ofOption (← home).elements[i]?
  return (address, ← ofOption (← get).store.elements[address]?)

/-- Copies a run of references from an element segment. -/
def tableInit (segment i : Nat) : Exec Unit := do
  let (target, source, count) ← popThree
  match slice? (← element segment).2 source count with
  | some items => writeItems (← tableAddress i) target items
  | none => trap .tableOutOfBounds

/-- Drops an element segment. -/
def elemDrop (segment : Nat) : Exec Unit := do
  let (address, _) ← element segment
  modifyStore fun s => { s with elements := s.elements.setIfInBounds address [] }

end WasmEmbedding.Engine.Exec
