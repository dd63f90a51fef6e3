import WasmEmbedding.Text.Basic
import WasmEmbedding.Text.Float
import WasmEmbedding.Value.Kind

/-! # Host values

A `Value` is what crosses the boundary between host and guest. Floats are kept as
bit patterns, so that a value is the same after a crossing bit for bit. References
point at host objects or at functions of an engine store.
-/
namespace WasmEmbedding

/-- The identity of an engine store; no two stores share one. -/
structure StoreId where
  val : Nat
  deriving DecidableEq, Repr, Inhabited

/-- A function of the store that issued the reference. -/
structure FuncRef where
  store : StoreId
  index : Nat
  deriving DecidableEq, Repr

/-- A host object, known by its name: two references denote one object iff their
names agree. The object's data is the text of its name. -/
structure ExternRef where
  name : String
  deriving DecidableEq, Repr

/-- A value passed into or returned from a guest function. -/
inductive Value where
  | i32 (bits : UInt32)
  | i64 (bits : UInt64)
  | f32 (bits : UInt32)
  | f64 (bits : UInt64)
  | v128 (bits : BitVec 128)
  | funcRef (ref : Option FuncRef)
  | externRef (ref : Option ExternRef)
  deriving DecidableEq, Repr, Inhabited

namespace Value

/-- The kind of a value. -/
def kind : Value → ValueKind
  | .i32 _ => .i32
  | .i64 _ => .i64
  | .f32 _ => .f32
  | .f64 _ => .f64
  | .v128 _ => .v128
  | .funcRef _ => .funcRef
  | .externRef _ => .externRef

/-- The zero or the null reference of a kind. -/
def zero : ValueKind → Value
  | .i32 => .i32 0
  | .i64 => .i64 0
  | .f32 => .f32 0
  | .f64 => .f64 0
  | .v128 => .v128 0
  | .funcRef => .funcRef none
  | .externRef => .externRef none

@[simp] theorem kind_zero (k : ValueKind) : (zero k).kind = k := by cases k <;> rfl

/-- The integer, of a value of kind `i32`. -/
def asI32? : Value → Option UInt32
  | .i32 x => some x
  | _ => none

/-- The integer, of a value of kind `i64`. -/
def asI64? : Value → Option UInt64
  | .i64 x => some x
  | _ => none

/-- The bits, of a value of kind `f32`. -/
def asF32? : Value → Option UInt32
  | .f32 x => some x
  | _ => none

/-- The bits, of a value of kind `f64`. -/
def asF64? : Value → Option UInt64
  | .f64 x => some x
  | _ => none

/-- The vector, of a value of kind `v128`. -/
def asV128? : Value → Option (BitVec 128)
  | .v128 x => some x
  | _ => none

/-- The object of a non-null external reference. -/
def asExternRef? : Value → Option ExternRef
  | .externRef r => r
  | _ => none

/-- Equality as the host observes it: floats by their bits, external references by
identity. A function has no identity that the host could observe, so a non-null
function reference equals nothing, itself included. -/
def same : Value → Value → Bool
  | .funcRef (some _), _ => false
  | a, b => a == b

/-- The description of a value, such as `I32(7)`. -/
def describe : Value → String
  | .i32 x => "I32(" ++ toString x.toInt32.toInt ++ ")"
  | .i64 x => "I64(" ++ toString x.toInt64.toInt ++ ")"
  | .f32 x => "F32(" ++ Text.FloatFormat.single.render x.toNat ++ ")"
  | .f64 x => "F64(" ++ Text.FloatFormat.double.render x.toNat ++ ")"
  | .v128 x => "V128(0x" ++ Text.Hex.ofNat 32 x.toNat ++ ")"
  | .funcRef r => "FuncRef(" ++ (if r.isSome then "func" else "null") ++ ")"
  | .externRef r => "ExternRef(" ++ (if r.isSome then "host" else "null") ++ ")"

end Value

end WasmEmbedding
