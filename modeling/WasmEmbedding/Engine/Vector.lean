import WasmEmbedding.Engine.FloatBits

/-! # Vector arithmetic

An operation on vectors splits them into lanes, works on the lanes, and puts the
results together again. Relaxed operations take the choices of processors with 128-bit
registers that have instructions for them.
-/
namespace WasmEmbedding

open Wasm

namespace Engine.Lanes

/-- The lanes of a vector, the lowest first. -/
def split (n : Nat) (x : BitVec 128) : List (BitVec n) :=
  (List.range (128 / n)).map fun i => x.extractLsb' (i * n) n

/-- The vector with given lanes; lanes that are missing are zero. -/
def join {n : Nat} : List (BitVec n) → BitVec 128
  | [] => 0
  | x :: rest => (join rest <<< n) ||| x.setWidth 128

/-- Works on every lane. -/
def map (n : Nat) (f : BitVec n → BitVec n) (a : BitVec 128) : BitVec 128 :=
  join ((split n a).map f)

/-- Works on the lanes of two vectors. -/
def map₂ (n : Nat) (f : BitVec n → BitVec n → BitVec n) (a b : BitVec 128) : BitVec 128 :=
  join (List.zipWith f (split n a) (split n b))

/-- Works on the float lanes of a vector. -/
def floatMap (w : Width) (f : Nat → Nat) : BitVec 128 → BitVec 128 :=
  map w.bits fun x => BitVec.ofNat w.bits (f x.toNat)

/-- Works on the float lanes of two vectors. -/
def floatMap₂ (w : Width) (f : Nat → Nat → Nat) : BitVec 128 → BitVec 128 → BitVec 128 :=
  map₂ w.bits fun x y => BitVec.ofNat w.bits (f x.toNat y.toNat)

/-- The lane for a truth value. -/
def mask {n : Nat} (b : Bool) : BitVec n := if b then BitVec.allOnes n else 0

/-- The lanes of one half. -/
def halfOf {α : Type} (h : Half) (lanes : List α) : List α :=
  match h with
  | .low => lanes.take (lanes.length / 2)
  | .high => lanes.drop (lanes.length / 2)

/-- The integers in the lanes. -/
def ints (l : Lane) (s : Sign) (x : BitVec 128) : List Int := (split l.bits x).map (readInt s)

/-- The vector with given integers in its lanes. -/
def ofInts (l : Lane) (xs : List Int) : BitVec 128 := join (xs.map (BitVec.ofInt l.bits))

/-- Joins neighbours. -/
def pairs {α β : Type} (f : α → α → β) : List α → List β
  | a :: b :: rest => f a b :: pairs f rest
  | _ => []

/-- A float to a 32-bit integer; relaxed, signed and out of range, the least one. -/
def truncateLane (relaxed : Bool) (w : Width) (s : Sign) (bits : Nat) : BitVec 32 :=
  match relaxed, s with
  | true, .signed =>
    match FloatBits.truncate 32 .signed w bits with
    | .ok x => x
    | .error _ => BitVec.intMin 32
  | _, _ => FloatBits.truncateSaturating 32 s w bits

/-- An unsigned times a signed byte, neighbours added up within 16 bits. -/
def dotBytes (a b : BitVec 128) : BitVec 128 :=
  let products := List.zipWith (· * ·) (ints .l8 .signed a) (ints .l8 .unsigned b)
  join (pairs (fun x y => saturate 16 .signed (x + y)) products)

/-- The bytes of two vectors in a chosen order. -/
def shuffle (lanes : List Nat) (a b : BitVec 128) : BitVec 128 :=
  let bytes := (split 8 a ++ split 8 b).toArray
  join (lanes.map fun i => bytes[i]?.getD 0)

/-- The vector with the same bits in every lane. -/
def splat (l : Lane) (n : Nat) : BitVec 128 :=
  join (List.replicate l.count (BitVec.ofNat l.bits n))

/-- The bits of a lane. -/
def get (l : Lane) (a : BitVec 128) (i : Nat) : Nat := (a.extractLsb' (i * l.bits) l.bits).toNat

/-- The vector with other bits in a lane. -/
def set (l : Lane) (a : BitVec 128) (i n : Nat) : BitVec 128 :=
  join ((split l.bits a).set i (BitVec.ofNat l.bits n))

end Engine.Lanes

open Engine Engine.Lanes

/-- An operation on one vector. -/
def Wasm.VectorUnary.eval (op : VectorUnary) (a : BitVec 128) : BitVec 128 :=
  match op with
  | .not => ~~~a
  | .abs l => map l.bits (fun x => if x.msb then -x else x) a
  | .neg l => map l.bits (fun x => -x) a
  | .popcnt => map 8 (fun x => x.cpop) a
  | .float w op => floatMap w (FloatBits.unary w op) a
  | .extAddPairwise l s => ofInts l (pairs (· + ·) (ints l.half s a))
  | .extend h l s => ofInts l (halfOf h (ints l.half s a))
  | .truncate relaxed w s =>
    join ((split w.bits a).map fun x => truncateLane relaxed w s x.toNat)
  | .convert .w32 s =>
    join ((ints .l32 s a).map fun x => BitVec.ofNat 32 (FloatBits.ofInt .w32 x))
  | .convert .w64 s =>
    join ((halfOf .low (ints .l32 s a)).map fun x => BitVec.ofNat 64 (FloatBits.ofInt .w64 x))
  | .demote => join ((split 64 a).map fun x => BitVec.ofNat 32 (FloatBits.demote x.toNat))
  | .promote =>
    join ((halfOf .low (split 32 a)).map fun x => BitVec.ofNat 64 (FloatBits.promote x.toNat))

/-- An operation on two vectors. -/
def Wasm.VectorBinary.eval (op : VectorBinary) (a b : BitVec 128) : BitVec 128 :=
  let select (f : BitVec 8 → Option Nat) :=
    join ((split 8 b).map fun i =>
      match f i with
      | some i => a.extractLsb' (i * 8) 8
      | none => 0)
  match op with
  | .and => a &&& b
  | .andNot => a &&& ~~~b
  | .or => a ||| b
  | .xor => a ^^^ b
  | .swizzle false => select fun i => if i.toNat < 16 then some i.toNat else none
  | .swizzle true => select fun i => if i.toNat < 128 then some (i.toNat % 16) else none
  | .intCompare l op => map₂ l.bits (fun x y => mask (op.eval x y)) a b
  | .floatCompare w op =>
    map₂ w.bits (fun x y => mask (FloatBits.compare w op x.toNat y.toNat)) a b
  | .narrow l s =>
    let wide (x : BitVec 128) : List Int :=
      match l with
      | .l8 => ints .l16 .signed x
      | _ => ints .l32 .signed x
    join ((wide a ++ wide b).map (saturate l.bits s))
  | .add l => map₂ l.bits (· + ·) a b
  | .sub l => map₂ l.bits (· - ·) a b
  | .mul l => map₂ l.bits (· * ·) a b
  | .addSat l s => map₂ l.bits (fun x y => saturate l.bits s (readInt s x + readInt s y)) a b
  | .subSat l s => map₂ l.bits (fun x y => saturate l.bits s (readInt s x - readInt s y)) a b
  | .min l s => map₂ l.bits (fun x y => if readInt s x ≤ readInt s y then x else y) a b
  | .max l s => map₂ l.bits (fun x y => if readInt s x ≤ readInt s y then y else x) a b
  | .average l => map₂ l.bits (fun x y => BitVec.ofNat l.bits ((x.toNat + y.toNat + 1) / 2)) a b
  | .q15mulr relaxed =>
    map₂ 16 (fun x y =>
      let product := (x.toInt * y.toInt + 0x4000) / 0x8000
      if relaxed then BitVec.ofInt 16 product else saturate 16 .signed product) a b
  | .dot =>
    let products := List.zipWith (· * ·) (ints .l16 .signed a) (ints .l16 .signed b)
    ofInts .l32 (pairs (· + ·) products)
  | .relaxedDot => dotBytes a b
  | .extMul h l s =>
    ofInts l (List.zipWith (· * ·) (halfOf h (ints l.half s a)) (halfOf h (ints l.half s b)))
  | .float w op => floatMap₂ w (FloatBits.binary w op) a b
  | .pseudoMin w => floatMap₂ w (fun x y => if FloatBits.less w y x then y else x) a b
  | .pseudoMax w => floatMap₂ w (fun x y => if FloatBits.less w x y then y else x) a b
  | .relaxedMin w => floatMap₂ w (fun x y => if FloatBits.less w y x then y else x) a b
  | .relaxedMax w => floatMap₂ w (fun x y => if FloatBits.less w x y then y else x) a b

/-- An operation on three vectors. -/
def Wasm.VectorTernary.eval (op : VectorTernary) (a b c : BitVec 128) : BitVec 128 :=
  let choose (m : BitVec 128) := (a &&& m) ||| (b &&& ~~~m)
  match op with
  | .bitselect => choose c
  | .relaxedMulAdd w negated =>
    let lanes (x : BitVec 128) : List Nat := (split w.bits x).map (·.toNat)
    let a := if negated then floatMap w (FloatBits.neg w) a else a
    let factors := (lanes a).zip (lanes b)
    join (List.zipWith (fun (x, y) z => BitVec.ofNat w.bits (FloatBits.mulAdd w x y z)) factors
      (lanes c))
  | .relaxedLaneSelect .l16 => choose c
  | .relaxedLaneSelect l => choose (map l.bits (fun x => mask x.msb) c)
  | .relaxedDotAdd =>
    map₂ 32 (· + ·) (ofInts .l32 (pairs (· + ·) (ints .l16 .signed (dotBytes a b)))) c

/-- A question about a vector. -/
def Wasm.VectorTest.eval (op : VectorTest) (a : BitVec 128) : UInt32 :=
  match op with
  | .anyTrue => truth (a ≠ 0)
  | .allTrue l => truth ((split l.bits a).all (· ≠ 0))
  | .bitmask l =>
    UInt32.ofNat ((split l.bits a).foldr (fun x acc => (if x.msb then 1 else 0) + 2 * acc) 0)

/-- A shift of all lanes. -/
def Wasm.VectorShift.eval (op : VectorShift) (l : Lane) (a : BitVec 128) (count : Nat) :
    BitVec 128 :=
  let n := count % l.bits
  match op with
  | .shl => map l.bits (· <<< n) a
  | .shr .unsigned => map l.bits (· >>> n) a
  | .shr .signed => map l.bits (·.sshiftRight n) a

end WasmEmbedding
