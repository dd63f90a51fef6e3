import WasmEmbedding.Wasm.Instr.Basic

/-! # Modules

A module as the sections of its binary form spell it out. Index spaces begin with the
imports of their kind; `functionTypes`, `tableTypes`, `memoryTypes` and `globalTypes`
are the spaces.
-/
namespace WasmEmbedding.Wasm

/-- A constant expression. -/
abbrev ConstExpr := List Instr

/-- A global and the expression for its first value. -/
structure GlobalDef where
  type : GlobalType
  init : ConstExpr
  deriving Repr

/-- Where a segment goes when its module is instantiated. -/
inductive SegmentMode where
  | passive
  /-- It only declares the functions it mentions. -/
  | declared
  | active (target : Nat) (offset : ConstExpr)
  deriving Repr

/-- A reference in an element segment. -/
inductive ElementItem where
  | function (index : Nat)
  | expression (init : ConstExpr)
  deriving Repr

/-- An element segment. -/
structure ElementSegment where
  mode : SegmentMode
  type : RefType
  items : List ElementItem
  deriving Repr

/-- A data segment. -/
structure DataSegment where
  mode : SegmentMode
  bytes : List UInt8
  deriving Repr

/-- A function body: groups of locals of one type, and the code. -/
structure FunctionBody where
  locals : List (Nat × ValType)
  code : List Instr
  deriving Repr, Inhabited

/-- A module. -/
structure Module where
  types : List FuncType := []
  imports : List Import := []
  /-- The types of the functions that have bodies. -/
  functions : List Nat := []
  tables : List TableType := []
  memories : List MemoryType := []
  globals : List GlobalDef := []
  exports : List Export := []
  start : Option Nat := none
  elements : List ElementSegment := []
  dataCount : Option Nat := none
  bodies : List FunctionBody := []
  datas : List DataSegment := []
  deriving Repr, Inhabited

namespace Module

/-- The types of the imported functions, by index. -/
def importedFunctions (m : Module) : List Nat :=
  m.imports.filterMap fun i => match i.type with | .function t => some t | _ => none

/-- The types of the imported tables. -/
def importedTables (m : Module) : List TableType :=
  m.imports.filterMap fun i => match i.type with | .table t => some t | _ => none

/-- The types of the imported memories. -/
def importedMemories (m : Module) : List MemoryType :=
  m.imports.filterMap fun i => match i.type with | .memory t => some t | _ => none

/-- The types of the imported globals. -/
def importedGlobals (m : Module) : List GlobalType :=
  m.imports.filterMap fun i => match i.type with | .global t => some t | _ => none

/-- The types of all functions, by index of a function type. -/
def functionTypes (m : Module) : List Nat := m.importedFunctions ++ m.functions

/-- The types of all tables. -/
def tableTypes (m : Module) : List TableType := m.importedTables ++ m.tables

/-- The types of all memories. -/
def memoryTypes (m : Module) : List MemoryType := m.importedMemories ++ m.memories

/-- The types of all globals. -/
def globalTypes (m : Module) : List GlobalType :=
  m.importedGlobals ++ m.globals.map GlobalDef.type

/-- The function type of an exported function. -/
def exportedFunction? (m : Module) (e : Export) : Option FuncType := do
  match e.kind with
  | .function => m.types[(← m.functionTypes[e.index]?)]?
  | _ => none

end Module

end WasmEmbedding.Wasm
