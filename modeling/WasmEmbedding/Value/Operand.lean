import WasmEmbedding.Value.Signature

/-! # Engine operands and the value codec

An `Operand` is what the engine computes with. `Value.encode` turns host values into
operands, and `Operand.decode` turns operands back by the kinds that a signature
declares, never by the operands' own tags. An external reference in the engine may
have been made by someone else than this host; such a reference has no host value.
-/
namespace WasmEmbedding

/-- The referent of an external reference in the engine. -/
inductive ExternObject where
  /-- An object of this host. -/
  | host (ref : ExternRef)
  /-- An object of somebody else, a number here. -/
  | foreign (data : Nat)
  /-- A reference that the engine converted from one of its own, a small integer. -/
  | converted (i31 : Nat)
  deriving DecidableEq, Repr

/-- A value inside the engine. -/
inductive Operand where
  | i32 (bits : UInt32)
  | i64 (bits : UInt64)
  | f32 (bits : UInt32)
  | f64 (bits : UInt64)
  | v128 (bits : BitVec 128)
  | func (ref : Option FuncRef)
  | external (ref : Option ExternObject)
  /-- The null reference of the engine's own heap. -/
  | anyNull
  deriving DecidableEq, Repr, Inhabited

namespace Operand

/-- The host kind of an operand, if there is one. -/
def kind? : Operand → Option ValueKind
  | .i32 _ => some .i32
  | .i64 _ => some .i64
  | .f32 _ => some .f32
  | .f64 _ => some .f64
  | .v128 _ => some .v128
  | .func _ => some .funcRef
  | .external _ => some .externRef
  | .anyNull => none

/-- The zero or the null reference of an engine type. -/
def zero : Wasm.ValType → Operand
  | .i32 => .i32 0
  | .i64 => .i64 0
  | .f32 => .f32 0
  | .f64 => .f64 0
  | .v128 => .v128 0
  | .ref r => if r = .externRef then .external none else .func none

/-- The store that a non-null function reference belongs to. -/
def store? : Operand → Option StoreId
  | .func (some r) => some r.store
  | _ => none

/-- An operand that a store can take in: a function reference must be its own. -/
def belongsTo (s : StoreId) (x : Operand) : Bool :=
  match x.store? with
  | some t => t == s
  | none => true

end Operand

/-- Whether an engine keeps a heap for external references. -/
inductive ExternHeap where
  | present
  | absent
  deriving DecidableEq, Repr

namespace Value

/-- The operand of a value. Only a non-null external reference can fail, in an
engine without a heap for it. -/
def encodeOne (heap : ExternHeap) : Value → Except ValueError Operand
  | .i32 x => .ok (.i32 x)
  | .i64 x => .ok (.i64 x)
  | .f32 x => .ok (.f32 x)
  | .f64 x => .ok (.f64 x)
  | .v128 x => .ok (.v128 x)
  | .funcRef r => .ok (.func r)
  | .externRef none => .ok (.external none)
  | .externRef (some r) =>
    match heap with
    | .present => .ok (.external (some (.host r)))
    | .absent => .error (.unsupportedType "externref (no heap for external references)")

/-- The operands of values, in order. -/
def encode (heap : ExternHeap) (values : List Value) : Except ValueError (List Operand) :=
  values.mapM (encodeOne heap)

end Value

namespace Operand

/-- The value of an operand at a position whose declared kind is given. -/
def decodeOne (index : Nat) (kind : ValueKind) (x : Operand) : Except ValueError Value :=
  match kind, x with
  | .i32, .i32 b => .ok (.i32 b)
  | .i64, .i64 b => .ok (.i64 b)
  | .f32, .f32 b => .ok (.f32 b)
  | .f64, .f64 b => .ok (.f64 b)
  | .v128, .v128 b => .ok (.v128 b)
  | .funcRef, .func r => .ok (.funcRef r)
  | .externRef, .external none => .ok (.externRef none)
  | .externRef, .external (some (.host r)) => .ok (.externRef (some r))
  | .externRef, .external (some _) => .error .foreignReference
  | k, x => .error (.typeMismatch index k (x.kind?.getD k))

/-- The values of operands from a position on, as long as both lists last. -/
def decodeFrom (index : Nat) : List Operand → List ValueKind → Except ValueError (List Value)
  | x :: xs, k :: ks => do
    let v ← decodeOne index k x
    let vs ← decodeFrom (index + 1) xs ks
    return v :: vs
  | _, _ => .ok []

/-- The values of operands, by the kinds that a signature declares. -/
def decode (operands : List Operand) (kinds : List ValueKind) : Except ValueError (List Value) :=
  if operands.length = kinds.length then decodeFrom 0 operands kinds
  else .error (.arityMismatch kinds.length operands.length)

end Operand

end WasmEmbedding
