import WasmEmbedding.Engine.FloatBits
import WasmEmbedding.Engine.Vector
import WasmEmbedding.Value.Operand

/-! # Computing on operands

`NumericOp.eval` and `VectorOp.eval` give the result of an instruction on its operands,
the first operand first. Operands of other types than the instruction's have no result,
which `Fault.stuck` tells apart from the traps of the language.
-/
namespace WasmEmbedding

open Wasm

namespace Engine

/-- Why an instruction has no result. -/
inductive Fault where
  | trap (code : TrapCode)
  /-- The operands are not those of the instruction; validated code never gets here. -/
  | stuck
  deriving DecidableEq, Repr

end Engine

open Engine

namespace Operand

/-- The integer of an operand. -/
def int? : (w : Width) → Operand → Option (BitVec w.bits)
  | .w32, .i32 x => some x.toBitVec
  | .w64, .i64 x => some x.toBitVec
  | _, _ => none

/-- The operand of an integer. -/
def ofInt : (w : Width) → BitVec w.bits → Operand
  | .w32, b => .i32 ⟨b⟩
  | .w64, b => .i64 ⟨b⟩

@[simp] theorem int?_ofInt (w : Width) (b : BitVec w.bits) : (ofInt w b).int? w = some b := by
  cases w <;> rfl

/-- The bits of a float operand. -/
def float? : Width → Operand → Option Nat
  | .w32, .f32 x => some x.toNat
  | .w64, .f64 x => some x.toNat
  | _, _ => none

/-- The operand of a float given by its bits. -/
def ofFloat : Width → Nat → Operand
  | .w32, n => .f32 (UInt32.ofNat n)
  | .w64, n => .f64 (UInt64.ofNat n)

/-- The operand of a truth value. -/
def ofBool (b : Bool) : Operand := .i32 (truth b)

/-- The operand of a lane's bits; narrow lanes are widened by a sign. -/
def ofLane : Shape → Sign → Nat → Operand
  | .float w, _, n => ofFloat w n
  | .int .l64, _, n => .i64 (UInt64.ofNat n)
  | .int .l32, _, n => .i32 (UInt32.ofNat n)
  | .int l, .unsigned, n => .i32 (UInt32.ofNat (n % Nat.pow 2 l.bits))
  | .int l, .signed, n => .i32 ⟨(BitVec.ofNat l.bits n).signExtend 32⟩

/-- The bits that an operand puts into a lane. -/
def lane? : Shape → Operand → Option Nat
  | .float w, x => x.float? w
  | .int .l64, .i64 x => some x.toNat
  | .int .l64, _ => none
  | .int l, .i32 x => some (x.toNat % Nat.pow 2 l.bits)
  | .int _, _ => none

end Operand

namespace Wasm

/-- A conversion of an operand of its source type. -/
def Conversion.eval (c : Conversion) (x : Operand) : Except Fault Operand :=
  let trapping {α : Type} : Except TrapCode α → Except Fault α := Except.mapError .trap
  match c, x with
  | .wrap, .i64 a => .ok (.i32 a.toUInt32)
  | .extend .unsigned, .i32 a => .ok (.i64 a.toUInt64)
  | .extend .signed, .i32 a => .ok (.i64 ⟨a.toBitVec.signExtend 64⟩)
  | .truncate saturating source target s, x =>
    match x.float? source with
    | some bits =>
      if saturating then
        .ok (.ofInt target (FloatBits.truncateSaturating target.bits s source bits))
      else do return .ofInt target (← trapping (FloatBits.truncate target.bits s source bits))
    | none => .error .stuck
  | .convert source target s, x =>
    match x.int? source with
    | some a => .ok (.ofFloat target (FloatBits.ofInt target (readInt s a)))
    | none => .error .stuck
  | .demote, .f64 a => .ok (.ofFloat .w32 (FloatBits.demote a.toNat))
  | .promote, .f32 a => .ok (.ofFloat .w64 (FloatBits.promote a.toNat))
  | .toBits .w32, .f32 a => .ok (.i32 a)
  | .toBits .w64, .f64 a => .ok (.i64 a)
  | .ofBits .w32, .i32 a => .ok (.f32 a)
  | .ofBits .w64, .i64 a => .ok (.f64 a)
  | _, _ => .error .stuck

/-- A numeric instruction on one operand. -/
def NumericOp.eval₁ (op : NumericOp) (x : Operand) : Except Fault Operand :=
  match op with
  | .intTest w =>
    match x.int? w with
    | some a => .ok (.ofBool (a = 0))
    | none => .error .stuck
  | .intUnary w op =>
    match x.int? w with
    | some a => .ok (.ofInt w (op.eval a))
    | none => .error .stuck
  | .floatUnary w op =>
    match x.float? w with
    | some a => .ok (.ofFloat w (FloatBits.unary w op a))
    | none => .error .stuck
  | .conversion c => c.eval x
  | _ => .error .stuck

/-- A numeric instruction on two operands. -/
def NumericOp.eval₂ (op : NumericOp) (x y : Operand) : Except Fault Operand :=
  match op with
  | .intBinary w op =>
    match x.int? w, y.int? w with
    | some a, some b =>
      match op.eval a b with
      | .ok c => .ok (.ofInt w c)
      | .error t => .error (.trap t)
    | _, _ => .error .stuck
  | .intCompare w op =>
    match x.int? w, y.int? w with
    | some a, some b => .ok (.ofBool (op.eval a b))
    | _, _ => .error .stuck
  | .floatBinary w op =>
    match x.float? w, y.float? w with
    | some a, some b => .ok (.ofFloat w (FloatBits.binary w op a b))
    | _, _ => .error .stuck
  | .floatCompare w op =>
    match x.float? w, y.float? w with
    | some a, some b => .ok (.ofBool (FloatBits.compare w op a b))
    | _, _ => .error .stuck
  | _ => .error .stuck

/-- A numeric instruction on its operands. -/
def NumericOp.eval (op : NumericOp) : List Operand → Except Fault Operand
  | [x] => op.eval₁ x
  | [x, y] => op.eval₂ x y
  | _ => .error .stuck

/-- A vector instruction on its operands. -/
def VectorOp.eval (op : VectorOp) (operands : List Operand) : Except Fault Operand :=
  match op, operands with
  | .splat s, [x] =>
    match x.lane? s with
    | some n => .ok (.v128 (Lanes.splat s.lane n))
    | none => .error .stuck
  | .extract s sign i, [.v128 a] => .ok (.ofLane s sign (Lanes.get s.lane a i))
  | .replace s i, [.v128 a, x] =>
    match x.lane? s with
    | some n => .ok (.v128 (Lanes.set s.lane a i n))
    | none => .error .stuck
  | .shuffle lanes, [.v128 a, .v128 b] => .ok (.v128 (Lanes.shuffle lanes a b))
  | .unary op, [.v128 a] => .ok (.v128 (op.eval a))
  | .binary op, [.v128 a, .v128 b] => .ok (.v128 (op.eval a b))
  | .ternary op, [.v128 a, .v128 b, .v128 c] => .ok (.v128 (op.eval a b c))
  | .test op, [.v128 a] => .ok (.i32 (op.eval a))
  | .shift l op, [.v128 a, .i32 n] => .ok (.v128 (op.eval l a n.toNat))
  | _, _ => .error .stuck

end Wasm

end WasmEmbedding
