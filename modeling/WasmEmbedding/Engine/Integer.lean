import WasmEmbedding.Error
import WasmEmbedding.Wasm.Instr.Vector

/-! # Integer arithmetic

Operations on words of any width: numbers use 32 and 64 bits, vector lanes also 8 and
16. Only division can trap.
-/
namespace WasmEmbedding

namespace Engine

open Wasm (Sign)

/-- The word for a truth value. -/
def truth (b : Bool) : UInt32 := if b then 1 else 0

/-- The integer that a word stands for. -/
def readInt {n : Nat} (s : Sign) (a : BitVec n) : Int :=
  match s with
  | .signed => a.toInt
  | .unsigned => a.toNat

/-- The word nearest to an integer, within the range of a sign. -/
def saturate (n : Nat) (s : Sign) (x : Int) : BitVec n :=
  match s with
  | .signed =>
    if x < -(Nat.pow 2 (n - 1) : Int) then BitVec.intMin n
    else if (Nat.pow 2 (n - 1) : Int) ≤ x then BitVec.intMax n
    else BitVec.ofInt n x
  | .unsigned =>
    if x < 0 then 0
    else if (Nat.pow 2 n : Int) ≤ x then BitVec.allOnes n
    else BitVec.ofInt n x

end Engine

namespace Wasm

open Engine

/-- An operation on one integer. -/
def IntUnary.eval {n : Nat} (op : IntUnary) (a : BitVec n) : BitVec n :=
  match op with
  | .clz => a.clz
  | .ctz => a.ctz
  | .popcnt => a.cpop
  | .extend8 => (a.setWidth 8).signExtend n
  | .extend16 => (a.setWidth 16).signExtend n
  | .extend32 => (a.setWidth 32).signExtend n

/-- An operation on two integers. -/
def IntBinary.eval {n : Nat} (op : IntBinary) (a b : BitVec n) : Except TrapCode (BitVec n) :=
  match op with
  | .add => .ok (a + b)
  | .sub => .ok (a - b)
  | .mul => .ok (a * b)
  | .div .unsigned => if b = 0 then .error .integerDivisionByZero else .ok (a.udiv b)
  | .div .signed =>
    if b = 0 then .error .integerDivisionByZero
    else if a = BitVec.intMin n ∧ b = BitVec.allOnes n then .error .integerOverflow
    else .ok (a.sdiv b)
  | .rem .unsigned => if b = 0 then .error .integerDivisionByZero else .ok (a.umod b)
  | .rem .signed => if b = 0 then .error .integerDivisionByZero else .ok (a.srem b)
  | .and => .ok (a &&& b)
  | .or => .ok (a ||| b)
  | .xor => .ok (a ^^^ b)
  | .shl => .ok (a <<< (b.toNat % n))
  | .shr .unsigned => .ok (a >>> (b.toNat % n))
  | .shr .signed => .ok (a.sshiftRight (b.toNat % n))
  | .rotl => .ok (a.rotateLeft (b.toNat % n))
  | .rotr => .ok (a.rotateRight (b.toNat % n))

/-- A comparison of two integers. -/
def IntCompare.eval {n : Nat} (op : IntCompare) (a b : BitVec n) : Bool :=
  match op with
  | .eq => a = b
  | .ne => a ≠ b
  | .lt s => readInt s a < readInt s b
  | .gt s => readInt s b < readInt s a
  | .le s => readInt s a ≤ readInt s b
  | .ge s => readInt s b ≤ readInt s a

end Wasm

end WasmEmbedding
