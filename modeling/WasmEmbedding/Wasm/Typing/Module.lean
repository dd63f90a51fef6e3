import WasmEmbedding.Wasm.Binary.Module
import WasmEmbedding.Wasm.Image
import WasmEmbedding.Wasm.Typing.Body

/-! # Validation

`Image.validate` answers the module of an image if the engine accepts it: its sections
decode, every type is one of the engine's, sizes are within their bounds, every index
leads somewhere, and expressions are well typed.
-/
namespace WasmEmbedding.Wasm

namespace Typing

/-- The most tables, and the most memories. -/
def maxSpaces : Nat := 100
/-- The most elements that a table may start with. -/
def maxTableSize : Nat := 10000000
/-- The most locals of a function, its parameters included. -/
def maxLocals : Nat := 50000

/-- A size range within a bound. -/
def checkLimits (bound : Nat) (l : Limits) : Check Unit := do
  require (l.min ≤ bound) "size minimum exceeds its bound"
  match l.max with
  | some max =>
    require (l.min ≤ max) "size minimum must not be greater than maximum"
    require (max ≤ bound) "size maximum exceeds its bound"
  | none => pure ()

/-- A function type. -/
def checkFuncType (features : Features) (t : FuncType) : Check Unit := do
  t.params.forM (checkValType features)
  t.results.forM (checkValType features)
  require (t.results.length ≤ 1 || features.multiValue)
    "func type returns multiple values but the multi-value feature is not enabled"

/-- The type of a reference in tables and segments; functions need no feature. -/
def checkElementType (features : Features) (r : RefType) : Check Unit :=
  if r = .funcRef then .ok () else checkRefType features r

/-- A table type. -/
def checkTableType (features : Features) (t : TableType) : Check Unit := do
  checkElementType features t.element
  require (!t.table64) "memory64 must be enabled for 64-bit tables"
  require (!t.shared) "shared tables require the shared-everything-threads proposal"
  checkLimits 0xFFFFFFFF t.limits
  require (t.limits.min ≤ maxTableSize) "minimum table size is out of bounds"

/-- A memory type. -/
def checkMemoryType (t : MemoryType) : Check Unit := do
  require (!t.memory64) "memory64 must be enabled for 64-bit memories"
  require t.pageSizeLog.isNone "the custom page sizes proposal must be enabled"
  require (!t.shared || t.limits.max.isSome) "shared memory must have maximum size"
  checkLimits maxPages t.limits

/-- A global type. -/
def checkGlobalType (features : Features) (t : GlobalType) : Check Unit := do
  checkValType features t.content
  require (!t.shared) "shared globals require the shared-everything-threads proposal"

/-- An import. -/
def checkImport (features : Features) (types : Array FuncType) (i : Import) : Check Unit := do
  match i.type with
  | .function t => (entry types "type" t).map fun _ => ()
  | .table t => checkTableType features t
  | .memory t => checkMemoryType t
  | .global t => checkGlobalType features t
  | .tag _ => throw "exceptions proposal not enabled"

/-- The functions that an expression mentions. -/
def mentioned (e : ConstExpr) : List Nat :=
  e.filterMap fun i => match i with | .op (.refFunc f) => some f | _ => none

/-- The functions that something outside of bodies mentions. -/
def declaredFunctions (m : Module) : List Nat :=
  (m.exports.filterMap fun e => if e.kind = .function then some e.index else none) ++
  m.globals.flatMap (fun g => mentioned g.init) ++
  m.elements.flatMap fun e => e.items.flatMap fun
    | .function f => [f]
    | .expression init => mentioned init

/-- The context of a module's expressions. -/
def moduleContext (features : Features) (m : Module) : Check Context := do
  let types := m.types.toArray
  let functions ← m.functionTypes.mapM (entry types "type")
  let declared := declaredFunctions m
  return {
    features, types
    functions := functions.toArray
    tables := m.tableTypes.toArray
    memories := m.memoryTypes.toArray
    globals := m.globalTypes.toArray
    importedGlobals := m.importedGlobals.length
    elements := (m.elements.map ElementSegment.type).toArray
    dataCount := m.dataCount
    declared := declared.contains }

/-- An export leads somewhere. -/
def checkExport (c : Context) (e : Export) : Check Unit :=
  match e.kind with
  | .function => (entry c.functions "function" e.index).map fun _ => ()
  | .table => (entry c.tables "table" e.index).map fun _ => ()
  | .memory => (entry c.memories "memory" e.index).map fun _ => ()
  | .global => (entry c.globals "global" e.index).map fun _ => ()
  | .tag => .error "unknown tag"

/-- No text is repeated. -/
def distinct (names : List String) : Bool :=
  let sorted := names.mergeSort
  (sorted.zip sorted.tail).all fun (a, b) => a ≠ b

/-- An element segment. -/
def checkElement (c : Context) (e : ElementSegment) : Check Unit := do
  checkElementType c.features e.type
  match e.mode with
  | .active target offset =>
    let t ← entry c.tables "table" target
    require (t.element = e.type) "type mismatch: invalid element type for table type"
    constExpr c .i32 offset
  | _ => require c.features.bulkMemory "bulk memory must be enabled"
  e.items.forM fun
    | .function f => (entry c.functions "function" f).map fun _ => ()
    | .expression init => constExpr c (.ref e.type) init

/-- A data segment. -/
def checkData (c : Context) (d : DataSegment) : Check Unit := do
  match d.mode with
  | .active target offset =>
    c.checkMemory target
    constExpr c .i32 offset
  | _ => pure ()

/-- A function body of a given type. -/
def checkBody (c : Context) (type : FuncType) (b : FunctionBody) : Check Unit := do
  require (b.locals.foldl (fun n g => n + g.1) type.params.length ≤ maxLocals)
    "too many locals: locals exceed maximum"
  b.locals.forM fun g => checkValType c.features g.2
  let locals := type.params ++ b.locals.flatMap fun g => List.replicate g.1 g.2
  expression { c with locals := locals.toArray, results := type.results } type.results b.code

/-- Bodies in order, one for each function. -/
def checkBodies (c : Context) : List Nat → List FunctionBody → Check Unit
  | t :: ts, b :: bs => do
    checkBody c (← entry c.types "type" t) b
    checkBodies c ts bs
  | [], [] => .ok ()
  | _, _ => .error "function and code section have inconsistent lengths"

/-- A module within the rules of an engine. -/
def checkModule (features : Features) (m : Module) : Check Unit := do
  m.types.forM (checkFuncType features)
  m.imports.forM (checkImport features m.types.toArray)
  m.tables.forM (checkTableType features)
  m.memories.forM checkMemoryType
  require (m.tableTypes.length ≤ if features.referenceTypes then maxSpaces else 1)
    "multiple tables"
  require (m.memoryTypes.length ≤ maxSpaces) "multiple memories"
  let c ← moduleContext features m
  for g in m.globals do
    checkGlobalType features g.type
    constExpr c g.type.content g.init
  m.exports.forM (checkExport c)
  require (distinct (m.exports.map Export.name)) "duplicate export name already defined"
  match m.start with
  | some f =>
    let t ← entry c.functions "function" f
    require (t = ⟨[], []⟩) "invalid start function type"
  | none => pure ()
  m.elements.forM (checkElement c)
  checkBodies c m.functions m.bodies
  m.datas.forM (checkData c)
  require (m.dataCount.all (· = m.datas.length))
    "data count and data section have inconsistent lengths"

end Typing

/-- The module of an image, if the engine accepts it. -/
def Image.validate (i : Image) (features : Features) : Except String Module := do
  let m ← Binary.decode features i.sections
  Typing.checkModule features m
  return m

end WasmEmbedding.Wasm
