/-! # WebAssembly types

The types that a binary module can write down. Modules that pass validation use only
the numbers, the vector and the two nullable references `funcref` and `externref`;
the other references are there because a listing reads modules before anyone has
validated them, and because an engine signature may mention them.
-/
namespace WasmEmbedding.Wasm

/-- The heap types that a module need not define. -/
inductive AbstractHeap where
  | func | external | any | none | noExternal | noFunc | eq | struct | array | i31
  | exception | noException | continuation | noContinuation
  deriving DecidableEq, Repr

/-- The name of an abstract heap type. -/
def AbstractHeap.text : AbstractHeap → String
  | .func => "func"
  | .external => "extern"
  | .any => "any"
  | .none => "none"
  | .noExternal => "noextern"
  | .noFunc => "nofunc"
  | .eq => "eq"
  | .struct => "struct"
  | .array => "array"
  | .i31 => "i31"
  | .exception => "exn"
  | .noException => "noexn"
  | .continuation => "cont"
  | .noContinuation => "nocont"

/-- What a reference may point at. -/
inductive HeapType where
  | abstract (shared : Bool) (heap : AbstractHeap)
  | concrete (index : Nat)
  deriving DecidableEq, Repr

/-- The name of a heap type. -/
def HeapType.text : HeapType → String
  | .abstract false h => h.text
  | .abstract true h => "(shared " ++ h.text ++ ")"
  | .concrete i => toString i

/-- A reference type. -/
structure RefType where
  nullable : Bool
  heap : HeapType
  deriving DecidableEq, Repr

namespace RefType

/-- The nullable reference to an unshared abstract heap type. -/
def null (h : AbstractHeap) : RefType := ⟨true, .abstract false h⟩

/-- References to functions. -/
def funcRef : RefType := null .func

/-- References to host objects. -/
def externRef : RefType := null .external

/-- The spelled-out form, `(ref null func)`. -/
def text (r : RefType) : String :=
  (if r.nullable then "(ref null " else "(ref ") ++ r.heap.text ++ ")"

end RefType

/-- The type of an operand. -/
inductive ValType where
  | i32 | i64 | f32 | f64 | v128
  | ref (r : RefType)
  deriving DecidableEq, Repr

namespace ValType

/-- `funcref`. -/
def funcRef : ValType := .ref .funcRef

/-- `externref`. -/
def externRef : ValType := .ref .externRef

/-- The spelled-out form of a type. -/
def text : ValType → String
  | .i32 => "i32"
  | .i64 => "i64"
  | .f32 => "f32"
  | .f64 => "f64"
  | .v128 => "v128"
  | .ref r => r.text

/-- Reads a type by its usual name, an abbreviation of a nullable reference or a
spelled-out non-null one. -/
def ofText? : String → Option ValType
  | "i32" => some .i32
  | "i64" => some .i64
  | "f32" => some .f32
  | "f64" => some .f64
  | "v128" => some .v128
  | "funcref" => some funcRef
  | "externref" => some externRef
  | "anyref" => some (.ref (.null .any))
  | "eqref" => some (.ref (.null .eq))
  | "i31ref" => some (.ref (.null .i31))
  | "structref" => some (.ref (.null .struct))
  | "arrayref" => some (.ref (.null .array))
  | "nullref" => some (.ref (.null .none))
  | "nullfuncref" => some (.ref (.null .noFunc))
  | "nullexternref" => some (.ref (.null .noExternal))
  | "(ref func)" => some (.ref ⟨false, .abstract false .func⟩)
  | "(ref extern)" => some (.ref ⟨false, .abstract false .external⟩)
  | "(ref any)" => some (.ref ⟨false, .abstract false .any⟩)
  | _ => none

/-- References of either kind. -/
def isRef : ValType → Bool
  | .ref _ => true
  | _ => false

end ValType

/-- A function type. -/
structure FuncType where
  params : List ValType
  results : List ValType
  deriving DecidableEq, Repr, Inhabited

/-- A size range, in elements or pages. -/
structure Limits where
  min : Nat
  max : Option Nat
  deriving DecidableEq, Repr

/-- A table type. -/
structure TableType where
  element : RefType
  limits : Limits
  table64 : Bool
  shared : Bool
  deriving DecidableEq, Repr

/-- A linear memory type. -/
structure MemoryType where
  limits : Limits
  memory64 : Bool
  shared : Bool
  pageSizeLog : Option Nat
  deriving DecidableEq, Repr

/-- A global type. -/
structure GlobalType where
  content : ValType
  isMutable : Bool
  shared : Bool
  deriving DecidableEq, Repr

/-- The kinds of things that a module imports and exports. -/
inductive ExternalKind where
  | function | table | memory | global | tag
  deriving DecidableEq, Repr

/-- The name of a kind in listings. -/
def ExternalKind.text : ExternalKind → String
  | .function => "func"
  | .table => "table"
  | .memory => "memory"
  | .global => "global"
  | .tag => "tag"

/-- What an import asks for; functions and tags name a type of the module. -/
inductive ImportType where
  | function (typeIndex : Nat)
  | table (type : TableType)
  | memory (type : MemoryType)
  | global (type : GlobalType)
  | tag (typeIndex : Nat)
  deriving DecidableEq, Repr

/-- The kind of an import. -/
def ImportType.kind : ImportType → ExternalKind
  | .function _ => .function
  | .table _ => .table
  | .memory _ => .memory
  | .global _ => .global
  | .tag _ => .tag

/-- An import entry. -/
structure Import where
  moduleName : String
  name : String
  type : ImportType
  deriving DecidableEq, Repr

/-- An export entry. -/
structure Export where
  name : String
  kind : ExternalKind
  index : Nat
  deriving DecidableEq, Repr

/-- Bytes of one page of linear memory. -/
def pageBytes : Nat := 65536

/-- Pages that a 32-bit memory can have. -/
def maxPages : Nat := 65536

/-- The features that can be switched. The rest is always there: sign extension,
saturating conversions, mutable globals across modules, several memories, extended
constants, tail calls and atomics. -/
structure Features where
  /-- Vectors, relaxed instructions included. -/
  simd : Bool := true
  bulkMemory : Bool := true
  referenceTypes : Bool := true
  multiValue : Bool := true
  deriving DecidableEq, Repr, Inhabited

end WasmEmbedding.Wasm
