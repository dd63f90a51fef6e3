import WasmEmbedding.Wasm.Instr.Numeric

/-! # Vector instructions

A vector has 128 bits, which an instruction sees as lanes of one shape. As for numbers,
`VectorOp.text` is the mnemonic and `VectorOp.type` the type of each instruction.
-/
namespace WasmEmbedding.Wasm

/-- The widths of integer lanes. -/
inductive Lane where
  | l8 | l16 | l32 | l64
  deriving DecidableEq, Repr

namespace Lane

/-- The count of bits. -/
def bits : Lane → Nat
  | .l8 => 8
  | .l16 => 16
  | .l32 => 32
  | .l64 => 64

/-- The count of lanes in a vector. -/
def count : Lane → Nat
  | .l8 => 16
  | .l16 => 8
  | .l32 => 4
  | .l64 => 2

/-- The shape of integer lanes. -/
def text : Lane → String
  | .l8 => "i8x16"
  | .l16 => "i16x8"
  | .l32 => "i32x4"
  | .l64 => "i64x2"

/-- The lanes of half the width. -/
def half : Lane → Lane
  | .l8 => .l8
  | .l16 => .l8
  | .l32 => .l16
  | .l64 => .l32

/-- The type of a lane on the stack. -/
def type : Lane → ValType
  | .l64 => .i64
  | _ => .i32

end Lane

/-- The lanes of floats of a width. -/
def Width.lane : Width → Lane
  | .w32 => .l32
  | .w64 => .l64

/-- The shape of float lanes. -/
def Width.shapeText : Width → String
  | .w32 => "f32x4"
  | .w64 => "f64x2"

/-- How a vector is seen. -/
inductive Shape where
  | int (l : Lane)
  | float (w : Width)
  deriving DecidableEq, Repr

namespace Shape

/-- The name of a shape. -/
def text : Shape → String
  | .int l => l.text
  | .float w => w.shapeText

/-- The type of a lane on the stack. -/
def type : Shape → ValType
  | .int l => l.type
  | .float w => w.float

/-- The lanes of a shape. -/
def lane : Shape → Lane
  | .int l => l
  | .float w => w.lane

end Shape

/-- Which half of the lanes is widened. -/
inductive Half where
  | low | high
  deriving DecidableEq, Repr

/-- The name of a half. -/
def Half.text : Half → String
  | .low => "low"
  | .high => "high"

/-- Operations on one vector. -/
inductive VectorUnary where
  | not
  | abs (l : Lane)
  | neg (l : Lane)
  | popcnt
  | float (w : Width) (op : FloatUnary)
  | extAddPairwise (target : Lane) (s : Sign)
  | extend (half : Half) (target : Lane) (s : Sign)
  /-- Floats to 32-bit integers; from the wide floats only the low lanes are filled. -/
  | truncate (relaxed : Bool) (source : Width) (s : Sign)
  /-- 32-bit integers to floats; to the wide floats only the low lanes are taken. -/
  | convert (target : Width) (s : Sign)
  | demote
  | promote
  deriving DecidableEq, Repr

/-- The mnemonic. -/
def VectorUnary.text : VectorUnary → String
  | .not => "v128.not"
  | .abs l => l.text ++ ".abs"
  | .neg l => l.text ++ ".neg"
  | .popcnt => "i8x16.popcnt"
  | .float w op => w.shapeText ++ "." ++ op.text
  | .extAddPairwise l s => l.text ++ ".extadd_pairwise_" ++ l.half.text ++ "_" ++ s.text
  | .extend h l s => l.text ++ ".extend_" ++ h.text ++ "_" ++ l.half.text ++ "_" ++ s.text
  | .truncate false w s =>
    "i32x4.trunc_sat_" ++ w.shapeText ++ "_" ++ s.text ++ (if w = .w64 then "_zero" else "")
  | .truncate true w s =>
    "i32x4.relaxed_trunc_" ++ w.shapeText ++ "_" ++ s.text ++ (if w = .w64 then "_zero" else "")
  | .convert w s =>
    w.shapeText ++ ".convert_" ++ (if w = .w64 then "low_" else "") ++ "i32x4_" ++ s.text
  | .demote => "f32x4.demote_f64x2_zero"
  | .promote => "f64x2.promote_low_f32x4"

/-- Operations on two vectors. -/
inductive VectorBinary where
  | and | andNot | or | xor
  | swizzle (relaxed : Bool)
  | intCompare (l : Lane) (op : IntCompare)
  | floatCompare (w : Width) (op : FloatCompare)
  | narrow (target : Lane) (s : Sign)
  | add (l : Lane) | sub (l : Lane) | mul (l : Lane)
  | addSat (l : Lane) (s : Sign) | subSat (l : Lane) (s : Sign)
  | min (l : Lane) (s : Sign) | max (l : Lane) (s : Sign)
  | average (l : Lane)
  | q15mulr (relaxed : Bool)
  | dot
  | relaxedDot
  | extMul (half : Half) (target : Lane) (s : Sign)
  | float (w : Width) (op : FloatBinary)
  | pseudoMin (w : Width) | pseudoMax (w : Width)
  | relaxedMin (w : Width) | relaxedMax (w : Width)
  deriving DecidableEq, Repr

/-- The mnemonic. -/
def VectorBinary.text : VectorBinary → String
  | .and => "v128.and"
  | .andNot => "v128.andnot"
  | .or => "v128.or"
  | .xor => "v128.xor"
  | .swizzle false => "i8x16.swizzle"
  | .swizzle true => "i8x16.relaxed_swizzle"
  | .intCompare l op => l.text ++ "." ++ op.text
  | .floatCompare w op => w.shapeText ++ "." ++ op.text
  | .narrow .l8 s => "i8x16.narrow_i16x8_" ++ s.text
  | .narrow l s => l.text ++ ".narrow_i32x4_" ++ s.text
  | .add l => l.text ++ ".add"
  | .sub l => l.text ++ ".sub"
  | .mul l => l.text ++ ".mul"
  | .addSat l s => l.text ++ ".add_sat_" ++ s.text
  | .subSat l s => l.text ++ ".sub_sat_" ++ s.text
  | .min l s => l.text ++ ".min_" ++ s.text
  | .max l s => l.text ++ ".max_" ++ s.text
  | .average l => l.text ++ ".avgr_u"
  | .q15mulr false => "i16x8.q15mulr_sat_s"
  | .q15mulr true => "i16x8.relaxed_q15mulr_s"
  | .dot => "i32x4.dot_i16x8_s"
  | .relaxedDot => "i16x8.relaxed_dot_i8x16_i7x16_s"
  | .extMul h l s => l.text ++ ".extmul_" ++ h.text ++ "_" ++ l.half.text ++ "_" ++ s.text
  | .float w op => w.shapeText ++ "." ++ op.text
  | .pseudoMin w => w.shapeText ++ ".pmin"
  | .pseudoMax w => w.shapeText ++ ".pmax"
  | .relaxedMin w => w.shapeText ++ ".relaxed_min"
  | .relaxedMax w => w.shapeText ++ ".relaxed_max"

/-- Operations on three vectors. -/
inductive VectorTernary where
  | bitselect
  | relaxedMulAdd (w : Width) (negated : Bool)
  | relaxedLaneSelect (l : Lane)
  | relaxedDotAdd
  deriving DecidableEq, Repr

/-- The mnemonic. -/
def VectorTernary.text : VectorTernary → String
  | .bitselect => "v128.bitselect"
  | .relaxedMulAdd w false => w.shapeText ++ ".relaxed_madd"
  | .relaxedMulAdd w true => w.shapeText ++ ".relaxed_nmadd"
  | .relaxedLaneSelect l => l.text ++ ".relaxed_laneselect"
  | .relaxedDotAdd => "i32x4.relaxed_dot_i8x16_i7x16_add_s"

/-- Questions about a vector. -/
inductive VectorTest where
  | anyTrue
  | allTrue (l : Lane)
  | bitmask (l : Lane)
  deriving DecidableEq, Repr

/-- The mnemonic. -/
def VectorTest.text : VectorTest → String
  | .anyTrue => "v128.any_true"
  | .allTrue l => l.text ++ ".all_true"
  | .bitmask l => l.text ++ ".bitmask"

/-- Shifts of all lanes by one count. -/
inductive VectorShift where
  | shl
  | shr (s : Sign)
  deriving DecidableEq, Repr

/-- The name of a shift. -/
def VectorShift.text : VectorShift → String
  | .shl => "shl"
  | .shr s => "shr_" ++ s.text

/-- The vector instructions that leave memory alone. -/
inductive VectorOp where
  | splat (s : Shape)
  /-- A lane of a vector; narrow lanes are widened by their sign. -/
  | extract (s : Shape) (sign : Sign) (lane : Nat)
  | replace (s : Shape) (lane : Nat)
  | shuffle (lanes : List Nat)
  | unary (op : VectorUnary)
  | binary (op : VectorBinary)
  | ternary (op : VectorTernary)
  | test (op : VectorTest)
  | shift (l : Lane) (op : VectorShift)
  deriving DecidableEq, Repr

namespace VectorOp

/-- The mark of an extraction's sign; wide lanes have none. -/
def extractMark : Shape → Sign → String
  | .int .l8, s => "_" ++ s.text
  | .int .l16, s => "_" ++ s.text
  | _, _ => ""

/-- The mnemonic. -/
def text : VectorOp → String
  | .splat s => s.text ++ ".splat"
  | .extract s sign _ => s.text ++ ".extract_lane" ++ extractMark s sign
  | .replace s _ => s.text ++ ".replace_lane"
  | .shuffle _ => "i8x16.shuffle"
  | .unary op => op.text
  | .binary op => op.text
  | .ternary op => op.text
  | .test op => op.text
  | .shift l op => l.text ++ "." ++ op.text

/-- The type. -/
def type : VectorOp → FuncType
  | .splat s => ⟨[s.type], [.v128]⟩
  | .extract s _ _ => ⟨[.v128], [s.type]⟩
  | .replace s _ => ⟨[.v128, s.type], [.v128]⟩
  | .shuffle _ => ⟨[.v128, .v128], [.v128]⟩
  | .unary _ => ⟨[.v128], [.v128]⟩
  | .binary _ => ⟨[.v128, .v128], [.v128]⟩
  | .ternary _ => ⟨[.v128, .v128, .v128], [.v128]⟩
  | .test _ => ⟨[.v128], [.i32]⟩
  | .shift _ _ => ⟨[.v128, .i32], [.v128]⟩

/-- The indices of lanes are within their bounds. -/
def lanesInRange : VectorOp → Bool
  | .extract s _ lane => lane < s.lane.count
  | .replace s lane => lane < s.lane.count
  | .shuffle lanes => lanes.length = 16 && lanes.all (· < 32)
  | _ => true

/-- The codes behind the byte `0xFD` of the instructions without immediates. -/
def coded : List (Nat × VectorOp) :=
  let un (n : Nat) (op : VectorUnary) := (n, unary op)
  let bin (n : Nat) (op : VectorBinary) := (n, binary op)
  let compares (n : Nat) (l : Lane) :=
    [IntCompare.eq, .ne, .lt .signed, .lt .unsigned, .gt .signed, .gt .unsigned, .le .signed,
      .le .unsigned, .ge .signed, .ge .unsigned].mapIdx fun i op => bin (n + i) (.intCompare l op)
  let floatCompares (n : Nat) (w : Width) :=
    [FloatCompare.eq, .ne, .lt, .gt, .le, .ge].mapIdx fun i op => bin (n + i) (.floatCompare w op)
  let shifts (n : Nat) (l : Lane) :=
    [VectorShift.shl, .shr .signed, .shr .unsigned].mapIdx fun i op => (n + i, shift l op)
  let floats (n : Nat) (w : Width) :=
    [un n (.float w .abs), un (n + 1) (.float w .neg), un (n + 3) (.float w .sqrt),
      bin (n + 4) (.float w .add), bin (n + 5) (.float w .sub), bin (n + 6) (.float w .mul),
      bin (n + 7) (.float w .div), bin (n + 8) (.float w .min), bin (n + 9) (.float w .max),
      bin (n + 10) (.pseudoMin w), bin (n + 11) (.pseudoMax w)]
  let widenings (n : Nat) (l : Lane) :=
    [un n (.extend .low l .signed), un (n + 1) (.extend .high l .signed),
      un (n + 2) (.extend .low l .unsigned), un (n + 3) (.extend .high l .unsigned)]
  let extMuls (n : Nat) (l : Lane) :=
    [bin n (.extMul .low l .signed), bin (n + 1) (.extMul .high l .signed),
      bin (n + 2) (.extMul .low l .unsigned), bin (n + 3) (.extMul .high l .unsigned)]
  let bounds (n : Nat) (l : Lane) :=
    [bin n (.min l .signed), bin (n + 1) (.min l .unsigned), bin (n + 2) (.max l .signed),
      bin (n + 3) (.max l .unsigned)]
  let saturated (n : Nat) (l : Lane) :=
    [bin n (.add l), bin (n + 1) (.addSat l .signed), bin (n + 2) (.addSat l .unsigned),
      bin (n + 3) (.sub l), bin (n + 4) (.subSat l .signed), bin (n + 5) (.subSat l .unsigned)]
  let signs (n : Nat) (l : Lane) := [un n (.abs l), un (n + 1) (.neg l)]
  let tests (n : Nat) (l : Lane) := [(n, test (.allTrue l)), (n + 1, test (.bitmask l))]
  [bin 14 (.swizzle false), (15, splat (.int .l8)), (16, splat (.int .l16)),
    (17, splat (.int .l32)), (18, splat (.int .l64)), (19, splat (.float .w32)),
    (20, splat (.float .w64))] ++
  compares 35 .l8 ++ compares 45 .l16 ++ compares 55 .l32 ++
  floatCompares 65 .w32 ++ floatCompares 71 .w64 ++
  [un 77 .not, bin 78 .and, bin 79 .andNot, bin 80 .or, bin 81 .xor, (82, ternary .bitselect),
    (83, test .anyTrue), un 94 .demote, un 95 .promote] ++
  signs 96 .l8 ++ [un 98 .popcnt] ++ tests 99 .l8 ++
  [bin 101 (.narrow .l8 .signed), bin 102 (.narrow .l8 .unsigned), un 103 (.float .w32 .ceil),
    un 104 (.float .w32 .floor), un 105 (.float .w32 .trunc), un 106 (.float .w32 .nearest)] ++
  shifts 107 .l8 ++ saturated 110 .l8 ++
  [un 116 (.float .w64 .ceil), un 117 (.float .w64 .floor)] ++ bounds 118 .l8 ++
  [un 122 (.float .w64 .trunc), bin 123 (.average .l8), un 124 (.extAddPairwise .l16 .signed),
    un 125 (.extAddPairwise .l16 .unsigned), un 126 (.extAddPairwise .l32 .signed),
    un 127 (.extAddPairwise .l32 .unsigned)] ++
  signs 128 .l16 ++ [bin 130 (.q15mulr false)] ++ tests 131 .l16 ++
  [bin 133 (.narrow .l16 .signed), bin 134 (.narrow .l16 .unsigned)] ++ widenings 135 .l16 ++
  shifts 139 .l16 ++ saturated 142 .l16 ++
  [un 148 (.float .w64 .nearest), bin 149 (.mul .l16)] ++ bounds 150 .l16 ++
  [bin 155 (.average .l16)] ++ extMuls 156 .l16 ++
  signs 160 .l32 ++ tests 163 .l32 ++ widenings 167 .l32 ++ shifts 171 .l32 ++
  [bin 174 (.add .l32), bin 177 (.sub .l32), bin 181 (.mul .l32)] ++ bounds 182 .l32 ++
  [bin 186 .dot] ++ extMuls 188 .l32 ++
  signs 192 .l64 ++ tests 195 .l64 ++ widenings 199 .l64 ++ shifts 203 .l64 ++
  [bin 206 (.add .l64), bin 209 (.sub .l64), bin 213 (.mul .l64)] ++
  ([IntCompare.eq, .ne, .lt .signed, .gt .signed, .le .signed, .ge .signed].mapIdx fun i op =>
    bin (214 + i) (.intCompare .l64 op)) ++
  extMuls 220 .l64 ++ floats 224 .w32 ++ floats 236 .w64 ++
  [un 248 (.truncate false .w32 .signed), un 249 (.truncate false .w32 .unsigned),
    un 250 (.convert .w32 .signed), un 251 (.convert .w32 .unsigned),
    un 252 (.truncate false .w64 .signed), un 253 (.truncate false .w64 .unsigned),
    un 254 (.convert .w64 .signed), un 255 (.convert .w64 .unsigned),
    bin 256 (.swizzle true), un 257 (.truncate true .w32 .signed),
    un 258 (.truncate true .w32 .unsigned), un 259 (.truncate true .w64 .signed),
    un 260 (.truncate true .w64 .unsigned), (261, ternary (.relaxedMulAdd .w32 false)),
    (262, ternary (.relaxedMulAdd .w32 true)), (263, ternary (.relaxedMulAdd .w64 false)),
    (264, ternary (.relaxedMulAdd .w64 true)), (265, ternary (.relaxedLaneSelect .l8)),
    (266, ternary (.relaxedLaneSelect .l16)), (267, ternary (.relaxedLaneSelect .l32)),
    (268, ternary (.relaxedLaneSelect .l64)), bin 269 (.relaxedMin .w32),
    bin 270 (.relaxedMax .w32), bin 271 (.relaxedMin .w64), bin 272 (.relaxedMax .w64),
    bin 273 (.q15mulr true), bin 274 .relaxedDot, (275, ternary .relaxedDotAdd)]

/-- The codes behind the byte `0xFD` of the instructions that name a lane. -/
def codedLanes : List (Nat × (Nat → VectorOp)) := [
  (21, extract (.int .l8) .signed), (22, extract (.int .l8) .unsigned), (23, replace (.int .l8)),
  (24, extract (.int .l16) .signed), (25, extract (.int .l16) .unsigned),
  (26, replace (.int .l16)), (27, extract (.int .l32) .signed), (28, replace (.int .l32)),
  (29, extract (.int .l64) .signed), (30, replace (.int .l64)),
  (31, extract (.float .w32) .signed), (32, replace (.float .w32)),
  (33, extract (.float .w64) .signed), (34, replace (.float .w64))]

end VectorOp

end WasmEmbedding.Wasm
