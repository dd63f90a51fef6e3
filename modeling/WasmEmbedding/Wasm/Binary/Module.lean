import WasmEmbedding.Wasm.Binary.Instr
import WasmEmbedding.Wasm.Binary.Section
import WasmEmbedding.Wasm.Module

/-! # Modules in binary form

`decode` reads the entries of all sections. The known sections come in one order, each
at most once, and their entries fill them; the sections of tags and of unknown numbers
are refused, and custom ones are passed over.
-/
namespace WasmEmbedding.Wasm.Binary

/-- The most entries of the sections that are bounded. -/
def maxEntries : Nat := 1000000
/-- The most segments of either kind. -/
def maxSegments : Nat := 100000
/-- The most parameters, and the most results, of a function type. -/
def maxArity : Nat := 1000

/-- A count within a bound, and so many things. -/
def bounded {α : Type} (bound : Nat) (item : Reader α) : Reader (List α) := do
  let count ← Reader.index
  if bound < count then throw "count exceeds limit"
  Reader.times item count

/-- A function type. -/
def funcType : Reader FuncType := do
  if (← Reader.byte) ≠ 0x60 then throw "unsupported type definition"
  let params ← bounded maxArity valType
  return ⟨params, ← bounded maxArity valType⟩

/-- A table; one with an expression for its elements is refused. -/
def table : Reader TableType := do
  if (← Reader.peek) = 0x40 then throw "tables with expression initializers are not supported"
  tableType

variable (features : Features)

/-- A global. -/
def globalDef : Reader GlobalDef := do
  let type ← globalType
  return ⟨type, ← expression features⟩

/-- An element segment. -/
def elementSegment : Reader ElementSegment := do
  let flags ← Reader.index
  if 8 ≤ flags then throw "invalid flags byte in element segment"
  let idle := flags % 2 = 1
  let second := flags / 2 % 2 = 1
  let byExpression := 4 ≤ flags
  let mode ←
    if idle then pure (if second then SegmentMode.declared else .passive)
    else do
      let target ← if second then Reader.index else pure 0
      pure (.active target (← expression features))
  let type ←
    if idle || second then
      if byExpression then refType
      else do
        if (← Reader.byte) ≠ 0 then throw "only the function external type is supported"
        pure RefType.funcRef
    else pure RefType.funcRef
  let items ←
    if byExpression then do
      pure ((← Reader.vector (expression features)).map ElementItem.expression)
    else do
      pure ((← Reader.vector Reader.index).map ElementItem.function)
  return ⟨mode, type, items⟩

/-- A data segment. -/
def dataSegment : Reader DataSegment := do
  let mode ← match ← Reader.index with
    | 0 => do pure (SegmentMode.active 0 (← expression features))
    | 1 => pure .passive
    | 2 => do
      let memory ← Reader.index
      pure (.active memory (← expression features))
    | _ => throw "invalid flags byte in data segment"
  return ⟨mode, ← Reader.take (← Reader.index)⟩

/-- A group of locals. -/
def localGroup : Reader (Nat × ValType) := do
  let count ← Reader.index
  return (count, ← valType)

/-- A function body. -/
def functionBody : Reader FunctionBody := do
  let groups ← Reader.vector localGroup
  return ⟨groups, ← expression features⟩

/-- The place of a section among the others; none of an unknown one. -/
def place? (id : UInt8) : Option Nat :=
  [Section.typeId, Section.importId, Section.functionId, Section.tableId, Section.memoryId,
    Section.globalId, Section.exportId, Section.startId, Section.elementId,
    Section.dataCountId, Section.codeId, Section.dataId].idxOf? id

/-- Reads the entries of one section into a module. -/
def addSection (m : Module) (s : Section) : Except String Module := do
  let all {α : Type} (r : Reader α) : Except String α := Reader.whole r s.content
  if s.id = Section.typeId then return { m with types := ← all (bounded maxEntries funcType) }
  else if s.id = Section.importId then
    return { m with imports := ← all (bounded maxEntries importEntry) }
  else if s.id = Section.functionId then
    return { m with functions := ← all (bounded maxEntries Reader.index) }
  else if s.id = Section.tableId then return { m with tables := ← all (Reader.vector table) }
  else if s.id = Section.memoryId then
    return { m with memories := ← all (Reader.vector memoryType) }
  else if s.id = Section.globalId then
    return { m with globals := ← all (bounded maxEntries (globalDef features)) }
  else if s.id = Section.exportId then
    return { m with exports := ← all (bounded maxEntries exportEntry) }
  else if s.id = Section.startId then return { m with start := some (← all Reader.index) }
  else if s.id = Section.elementId then
    return { m with elements := ← all (bounded maxSegments (elementSegment features)) }
  else if s.id = Section.dataCountId then
    return { m with dataCount := some (← all Reader.index) }
  else if s.id = Section.codeId then
    let bodies ← (← Section.bodies s.content).mapM (Reader.whole (functionBody features))
    return { m with bodies }
  else return { m with datas := ← all (bounded maxSegments (dataSegment features)) }

/-- Reads sections into a module, of which the next must not come before `place`. -/
def addSections : Nat → Module → List Section → Except String Module
  | _, m, [] => .ok m
  | place, m, s :: rest =>
    if s.id = Section.customId then addSections place m rest
    else
      match place? s.id with
      | none => .error "malformed section id"
      | some p =>
        if p < place then .error "section out of order"
        else do addSections (p + 1) (← addSection features m s) rest

/-- The module that sections hold. -/
def decode (sections : List Section) : Except String Module :=
  addSections features 0 {} sections

end WasmEmbedding.Wasm.Binary
