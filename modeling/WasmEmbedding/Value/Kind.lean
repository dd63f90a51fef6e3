import WasmEmbedding.Wasm.Types

/-! # Value kinds

The kinds of values that the host exchanges with guest code, and the engine types
they stand for. `ofType?` reads exactly the types that `toType` writes.
-/
namespace WasmEmbedding

/-- The kind of a value as the host sees it. -/
inductive ValueKind where
  | i32 | i64 | f32 | f64 | v128 | funcRef | externRef
  deriving DecidableEq, Repr, Inhabited

namespace ValueKind

/-- All kinds. -/
def all : List ValueKind := [.i32, .i64, .f32, .f64, .v128, .funcRef, .externRef]

/-- The name of a kind. -/
def name : ValueKind → String
  | .i32 => "i32"
  | .i64 => "i64"
  | .f32 => "f32"
  | .f64 => "f64"
  | .v128 => "v128"
  | .funcRef => "funcref"
  | .externRef => "externref"

/-- The kind with a given name. -/
def ofName? (s : String) : Option ValueKind := all.find? fun k => k.name = s

/-- The constructor's name, as descriptions of signatures show it. -/
def label : ValueKind → String
  | .i32 => "I32"
  | .i64 => "I64"
  | .f32 => "F32"
  | .f64 => "F64"
  | .v128 => "V128"
  | .funcRef => "FuncRef"
  | .externRef => "ExternRef"

/-- References of either kind. -/
def isReference : ValueKind → Bool
  | .funcRef => true
  | .externRef => true
  | _ => false

/-- The engine type of a kind. -/
def toType : ValueKind → Wasm.ValType
  | .i32 => .i32
  | .i64 => .i64
  | .f32 => .f32
  | .f64 => .f64
  | .v128 => .v128
  | .funcRef => .funcRef
  | .externRef => .externRef

/-- The kind of an engine type, if the host has one for it. -/
def ofType? : Wasm.ValType → Option ValueKind
  | .i32 => some .i32
  | .i64 => some .i64
  | .f32 => some .f32
  | .f64 => some .f64
  | .v128 => some .v128
  | .ref r =>
    if r = .funcRef then some .funcRef
    else if r = .externRef then some .externRef
    else none

@[simp] theorem ofType?_toType (k : ValueKind) : ofType? k.toType = some k := by
  cases k <;> rfl

end ValueKind

end WasmEmbedding
