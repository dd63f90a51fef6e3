import WasmEmbedding.Engine.Integer
import WasmEmbedding.Text.Float

/-! # Float arithmetic

Floats are bit patterns. What the arithmetic does with patterns that are no numbers is
decided here: an operand of that kind is made quiet and handed on, the first before the
second, and an operation on numbers that has no number for its result gives the quiet
pattern with the sign set. On numbers, results are rounded to the nearest, ties to even.
-/
namespace WasmEmbedding

/-- The format of a width. -/
def Wasm.Width.format : Wasm.Width → Text.FloatFormat
  | .w32 => .single
  | .w64 => .double

namespace Engine.FloatBits

open Wasm (Sign Width FloatUnary FloatBinary FloatCompare)

/-- The pattern is no number. -/
def isNaN (w : Width) (bits : Nat) : Bool := w.format.magnitude bits = .nan

/-- The sign bit alone. -/
def signBit (w : Width) : Nat := Nat.pow 2 (w.bits - 1)

/-- The pattern without its sign. -/
def abs (w : Width) (bits : Nat) : Nat := bits % signBit w

/-- The sign of a pattern. -/
def isNegative (w : Width) (bits : Nat) : Bool := decide (signBit w ≤ bits)

/-- The pattern with the other sign. -/
def neg (w : Width) (bits : Nat) : Nat :=
  if isNegative w bits then bits - signBit w else bits + signBit w

/-- The first pattern with the sign of the second. -/
def copySign (w : Width) (a b : Nat) : Nat :=
  if isNegative w b then abs w a + signBit w else abs w a

/-- Sets the bit that marks a pattern as quiet. -/
def quiet (w : Width) (bits : Nat) : Nat :=
  bits ||| Nat.pow 2 (w.format.fractionBits - 1)

/-- The pattern for a result that is no number. -/
def undefined (w : Width) : Nat :=
  signBit w + w.format.infinity + Nat.pow 2 (w.format.fractionBits - 1)

/-- A result on numbers. -/
def settle (w : Width) (bits : Nat) : Nat := if isNaN w bits then undefined w else bits

/-- Applies an operation of the width to patterns of numbers. -/
def apply (w : Width) (single : Float32 → Float32 → Float32) (double : Float → Float → Float)
    (a b : Nat) : Nat :=
  match w with
  | .w32 =>
    (single (Float32.ofBits (UInt32.ofNat a)) (Float32.ofBits (UInt32.ofNat b))).toBits.toNat
  | .w64 => (double (Float.ofBits (UInt64.ofNat a)) (Float.ofBits (UInt64.ofNat b))).toBits.toNat

/-- Holds a comparison of the width against patterns. -/
def holds (w : Width) (single : Float32 → Float32 → Bool) (double : Float → Float → Bool)
    (a b : Nat) : Bool :=
  match w with
  | .w32 => single (Float32.ofBits (UInt32.ofNat a)) (Float32.ofBits (UInt32.ofNat b))
  | .w64 => double (Float.ofBits (UInt64.ofNat a)) (Float.ofBits (UInt64.ofNat b))

/-- The first number is less than the second. -/
def less (w : Width) (a b : Nat) : Bool :=
  holds w (fun x y => decide (x < y)) (fun x y => decide (x < y)) a b

/-- The numbers are the same, zeros of either sign included. -/
def equal (w : Width) (a b : Nat) : Bool := holds w (· == ·) (· == ·) a b

/-- The least float from which on every float is an integer. -/
def integral (w : Width) : Nat :=
  let f := w.format
  (f.bias + f.fractionBits) * Nat.pow 2 f.fractionBits

/-- The nearest integer of a number, ties to even: adding and taking away a number so
large that it leaves no room for a fraction rounds. -/
def nearest (w : Width) (bits : Nat) : Nat :=
  let a := abs w bits
  if integral w ≤ a then bits
  else
    let up := apply w (· + ·) (· + ·) a (integral w)
    copySign w (apply w (· - ·) (· - ·) up (integral w)) bits

/-- An operation on one float. -/
def unary (w : Width) (op : FloatUnary) (a : Nat) : Nat :=
  match op with
  | .abs => abs w a
  | .neg => neg w a
  | op =>
    if isNaN w a then quiet w a
    else match op with
      | .ceil => apply w (fun x _ => x.ceil) (fun x _ => x.ceil) a a
      | .floor => apply w (fun x _ => x.floor) (fun x _ => x.floor) a a
      | .trunc => copySign w (apply w (fun x _ => x.floor) (fun x _ => x.floor) (abs w a) a) a
      | .nearest => nearest w a
      | _ => settle w (apply w (fun x _ => x.sqrt) (fun x _ => x.sqrt) a a)

/-- The less of two numbers, the negative zero being less than the other. -/
def least (w : Width) (a b : Nat) : Nat :=
  if equal w a b then a ||| b else if less w a b then a else b

/-- The greater of two numbers. -/
def greatest (w : Width) (a b : Nat) : Nat :=
  if equal w a b then a &&& b else if less w a b then b else a

/-- An operation on two floats. The least and the greatest hand on the second operand
before the first. -/
def binary (w : Width) (op : FloatBinary) (a b : Nat) : Nat :=
  let handed (a b : Nat) : Option Nat :=
    if isNaN w a then some (quiet w a)
    else if isNaN w b then some (quiet w b)
    else none
  match op with
  | .copysign => copySign w a b
  | .min => (handed b a).getD (least w a b)
  | .max => (handed b a).getD (greatest w a b)
  | .add => (handed a b).getD (settle w (apply w (· + ·) (· + ·) a b))
  | .sub => (handed a b).getD (settle w (apply w (· - ·) (· - ·) a b))
  | .mul => (handed a b).getD (settle w (apply w (· * ·) (· * ·) a b))
  | .div => (handed a b).getD (settle w (apply w (· / ·) (· / ·) a b))

/-- A finite pattern as an integer times a power of two, or nothing. -/
def finite? (w : Width) (bits : Nat) : Option (Int × Int) :=
  match w.format.magnitude bits with
  | .finite m q => some (if isNegative w bits then -(m : Int) else m, q)
  | _ => none

/-- The pattern nearest to `x · 2^q`; beyond all of them, infinity. What is zero has the
sign that is given. -/
def ofExact (w : Width) (x q : Int) (negativeZero : Bool) : Nat :=
  let size := (w.format.ofScaled? x.natAbs 2 q).getD w.format.infinity
  if x < 0 ∨ x = 0 ∧ negativeZero then size + signBit w else size

/-- A product and a sum in one, rounded once. -/
def mulAdd (w : Width) (a b c : Nat) : Nat :=
  match [a, b, c].find? (isNaN w) with
  | some x => quiet w x
  | none =>
    let negative := isNegative w a != isNegative w b
    match finite? w a, finite? w b, finite? w c with
    | some (x, p), some (y, q), some (z, r) =>
      let e := min (p + q) r
      let product := x * y * (Nat.pow 2 (p + q - e).toNat : Int)
      let summand := z * (Nat.pow 2 (r - e).toNat : Int)
      ofExact w (product + summand) e (negative && isNegative w c)
    | some _, some _, none => c
    | _, _, _ => binary w .add (binary w .mul a b) c

/-- A comparison of two floats. -/
def compare (w : Width) (op : FloatCompare) (a b : Nat) : Bool :=
  match op with
  | .eq => equal w a b
  | .ne => !equal w a b
  | .lt => less w a b
  | .gt => less w b a
  | .le => less w a b || equal w a b
  | .ge => less w b a || equal w a b

/-- The integer part of a number, or the reason there is none. -/
inductive Part where
  | none
  | infinite (negative : Bool)
  | int (x : Int)
  deriving DecidableEq, Repr

/-- The integer part of a float. -/
def part (w : Width) (bits : Nat) : Part :=
  match w.format.magnitude bits with
  | .nan => .none
  | .infinite => .infinite (isNegative w bits)
  | .finite m q =>
    let size : Nat := if 0 ≤ q then m * Nat.pow 2 q.toNat else m / Nat.pow 2 (-q).toNat
    .int (if isNegative w bits then -(size : Int) else size)

/-- Whether a word holds an integer. -/
def fits (n : Nat) (s : Sign) (x : Int) : Bool :=
  match s with
  | .signed => -(Nat.pow 2 (n - 1) : Int) ≤ x && x < (Nat.pow 2 (n - 1) : Int)
  | .unsigned => 0 ≤ x && x < (Nat.pow 2 n : Int)

/-- The integer part as a word; out of range, a trap. -/
def truncate (n : Nat) (s : Sign) (w : Width) (bits : Nat) : Except TrapCode (BitVec n) :=
  match part w bits with
  | .none => .error .badConversionToInteger
  | .infinite _ => .error .integerOverflow
  | .int x => if fits n s x then .ok (BitVec.ofInt n x) else .error .integerOverflow

/-- The integer part as a word; out of range, the nearest word, and zero for what is no
number. -/
def truncateSaturating (n : Nat) (s : Sign) (w : Width) (bits : Nat) : BitVec n :=
  match part w bits with
  | .none => 0
  | .infinite negative =>
    let beyond : Int := Nat.pow 2 n
    saturate n s (if negative then -beyond else beyond)
  | .int x => saturate n s x

/-- The float nearest to an integer of at most 64 bits. -/
def ofInt (w : Width) (x : Int) : Nat :=
  match w with
  | .w32 =>
    if x < 0 then (Int64.ofInt x).toFloat32.toBits.toNat
    else (UInt64.ofNat x.toNat).toFloat32.toBits.toNat
  | .w64 =>
    if x < 0 then (Int64.ofInt x).toFloat.toBits.toNat
    else (UInt64.ofNat x.toNat).toFloat.toBits.toNat

/-- The fraction bits that one format has more than the other. -/
def spareBits : Nat := 29

/-- A wide float as a narrow one. -/
def demote (bits : Nat) : Nat :=
  if isNaN .w64 bits then
    copySign .w32 (quiet .w32 (0x7F800000 + bits % Nat.pow 2 52 / Nat.pow 2 spareBits))
      (bits / Nat.pow 2 32)
  else (Float.ofBits (UInt64.ofNat bits)).toFloat32.toBits.toNat

/-- A narrow float as a wide one. -/
def promote (bits : Nat) : Nat :=
  if isNaN .w32 bits then
    copySign .w64 (quiet .w64 (0x7FF0000000000000 + bits % Nat.pow 2 23 * Nat.pow 2 spareBits))
      (bits * Nat.pow 2 32)
  else (Float32.ofBits (UInt32.ofNat bits)).toFloat.toBits.toNat

end Engine.FloatBits

end WasmEmbedding
