import WasmEmbedding.Wasm.Types

/-! # Numeric instructions

The instructions that compute on the stack alone, by the widths and the operation they
combine. `NumericOp.text` is the mnemonic and `NumericOp.type` the type of each.
-/
namespace WasmEmbedding.Wasm

/-- Whether an operation reads its integers as signed. -/
inductive Sign where
  | signed | unsigned
  deriving DecidableEq, Repr

/-- The mark of a sign in mnemonics. -/
def Sign.text : Sign → String
  | .signed => "s"
  | .unsigned => "u"

/-- The widths of numbers. -/
inductive Width where
  | w32 | w64
  deriving DecidableEq, Repr

namespace Width

/-- The count of bits. -/
def bits : Width → Nat
  | .w32 => 32
  | .w64 => 64

/-- The integer type. -/
def int : Width → ValType
  | .w32 => .i32
  | .w64 => .i64

/-- The float type. -/
def float : Width → ValType
  | .w32 => .f32
  | .w64 => .f64

end Width

/-- Operations on one integer. -/
inductive IntUnary where
  | clz | ctz | popcnt | extend8 | extend16 | extend32
  deriving DecidableEq, Repr

/-- The name of an operation. -/
def IntUnary.text : IntUnary → String
  | .clz => "clz"
  | .ctz => "ctz"
  | .popcnt => "popcnt"
  | .extend8 => "extend8_s"
  | .extend16 => "extend16_s"
  | .extend32 => "extend32_s"

/-- Operations on two integers. -/
inductive IntBinary where
  | add | sub | mul
  | div (s : Sign) | rem (s : Sign)
  | and | or | xor | shl
  | shr (s : Sign)
  | rotl | rotr
  deriving DecidableEq, Repr

/-- The name of an operation. -/
def IntBinary.text : IntBinary → String
  | .add => "add"
  | .sub => "sub"
  | .mul => "mul"
  | .div s => "div_" ++ s.text
  | .rem s => "rem_" ++ s.text
  | .and => "and"
  | .or => "or"
  | .xor => "xor"
  | .shl => "shl"
  | .shr s => "shr_" ++ s.text
  | .rotl => "rotl"
  | .rotr => "rotr"

/-- Comparisons of integers. -/
inductive IntCompare where
  | eq | ne
  | lt (s : Sign) | gt (s : Sign) | le (s : Sign) | ge (s : Sign)
  deriving DecidableEq, Repr

/-- The name of a comparison. -/
def IntCompare.text : IntCompare → String
  | .eq => "eq"
  | .ne => "ne"
  | .lt s => "lt_" ++ s.text
  | .gt s => "gt_" ++ s.text
  | .le s => "le_" ++ s.text
  | .ge s => "ge_" ++ s.text

/-- Operations on one float. -/
inductive FloatUnary where
  | abs | neg | ceil | floor | trunc | nearest | sqrt
  deriving DecidableEq, Repr

/-- The name of an operation. -/
def FloatUnary.text : FloatUnary → String
  | .abs => "abs"
  | .neg => "neg"
  | .ceil => "ceil"
  | .floor => "floor"
  | .trunc => "trunc"
  | .nearest => "nearest"
  | .sqrt => "sqrt"

/-- Operations on two floats. -/
inductive FloatBinary where
  | add | sub | mul | div | min | max | copysign
  deriving DecidableEq, Repr

/-- The name of an operation. -/
def FloatBinary.text : FloatBinary → String
  | .add => "add"
  | .sub => "sub"
  | .mul => "mul"
  | .div => "div"
  | .min => "min"
  | .max => "max"
  | .copysign => "copysign"

/-- Comparisons of floats. -/
inductive FloatCompare where
  | eq | ne | lt | gt | le | ge
  deriving DecidableEq, Repr

/-- The name of a comparison. -/
def FloatCompare.text : FloatCompare → String
  | .eq => "eq"
  | .ne => "ne"
  | .lt => "lt"
  | .gt => "gt"
  | .le => "le"
  | .ge => "ge"

/-- Changes of type. -/
inductive Conversion where
  | wrap
  | extend (s : Sign)
  /-- A float to an integer, out of range a trap or the nearest integer. -/
  | truncate (saturating : Bool) (source target : Width) (s : Sign)
  | convert (source target : Width) (s : Sign)
  | demote
  | promote
  | toBits (w : Width)
  | ofBits (w : Width)
  deriving DecidableEq, Repr

namespace Conversion

/-- The type a conversion takes. -/
def source : Conversion → ValType
  | .wrap => .i64
  | .extend _ => .i32
  | .truncate _ w _ _ => w.float
  | .convert w _ _ => w.int
  | .demote => .f64
  | .promote => .f32
  | .toBits w => w.float
  | .ofBits w => w.int

/-- The type a conversion gives. -/
def target : Conversion → ValType
  | .wrap => .i32
  | .extend _ => .i64
  | .truncate _ _ w _ => w.int
  | .convert _ w _ => w.float
  | .demote => .f32
  | .promote => .f64
  | .toBits w => w.int
  | .ofBits w => w.float

/-- The name of a conversion, without its types. -/
def verb : Conversion → String
  | .wrap => "wrap"
  | .extend _ => "extend"
  | .truncate false _ _ _ => "trunc"
  | .truncate true _ _ _ => "trunc_sat"
  | .convert _ _ _ => "convert"
  | .demote => "demote"
  | .promote => "promote"
  | .toBits _ => "reinterpret"
  | .ofBits _ => "reinterpret"

/-- The sign a conversion is marked with. -/
def sign? : Conversion → Option Sign
  | .extend s => some s
  | .truncate _ _ _ s => some s
  | .convert _ _ s => some s
  | _ => none

/-- The mnemonic of a conversion. -/
def text (c : Conversion) : String :=
  c.target.text ++ "." ++ c.verb ++ "_" ++ c.source.text ++
    match c.sign? with
    | some s => "_" ++ s.text
    | none => ""

end Conversion

/-- The numeric instructions. -/
inductive NumericOp where
  | intTest (w : Width)
  | intUnary (w : Width) (op : IntUnary)
  | intBinary (w : Width) (op : IntBinary)
  | intCompare (w : Width) (op : IntCompare)
  | floatUnary (w : Width) (op : FloatUnary)
  | floatBinary (w : Width) (op : FloatBinary)
  | floatCompare (w : Width) (op : FloatCompare)
  | conversion (c : Conversion)
  deriving DecidableEq, Repr

namespace NumericOp

/-- The mnemonic. -/
def text : NumericOp → String
  | .intTest w => w.int.text ++ ".eqz"
  | .intUnary w op => w.int.text ++ "." ++ op.text
  | .intBinary w op => w.int.text ++ "." ++ op.text
  | .intCompare w op => w.int.text ++ "." ++ op.text
  | .floatUnary w op => w.float.text ++ "." ++ op.text
  | .floatBinary w op => w.float.text ++ "." ++ op.text
  | .floatCompare w op => w.float.text ++ "." ++ op.text
  | .conversion c => c.text

/-- The type. -/
def type : NumericOp → FuncType
  | .intTest w => ⟨[w.int], [.i32]⟩
  | .intUnary w _ => ⟨[w.int], [w.int]⟩
  | .intBinary w _ => ⟨[w.int, w.int], [w.int]⟩
  | .intCompare w _ => ⟨[w.int, w.int], [.i32]⟩
  | .floatUnary w _ => ⟨[w.float], [w.float]⟩
  | .floatBinary w _ => ⟨[w.float, w.float], [w.float]⟩
  | .floatCompare w _ => ⟨[w.float, w.float], [.i32]⟩
  | .conversion c => ⟨[c.source], [c.target]⟩

/-- The comparisons of one integer width, in the order of their codes. -/
def intCompares (w : Width) : List NumericOp :=
  .intTest w :: [IntCompare.eq, .ne, .lt .signed, .lt .unsigned, .gt .signed, .gt .unsigned,
    .le .signed, .le .unsigned, .ge .signed, .ge .unsigned].map (.intCompare w)

/-- The comparisons of one float width, in the order of their codes. -/
def floatCompares (w : Width) : List NumericOp :=
  [FloatCompare.eq, .ne, .lt, .gt, .le, .ge].map (.floatCompare w)

/-- The arithmetic of one integer width, in the order of its codes. -/
def intArithmetic (w : Width) : List NumericOp :=
  [IntUnary.clz, .ctz, .popcnt].map (.intUnary w) ++
  [IntBinary.add, .sub, .mul, .div .signed, .div .unsigned, .rem .signed, .rem .unsigned,
    .and, .or, .xor, .shl, .shr .signed, .shr .unsigned, .rotl, .rotr].map (.intBinary w)

/-- The arithmetic of one float width, in the order of its codes. -/
def floatArithmetic (w : Width) : List NumericOp :=
  [FloatUnary.abs, .neg, .ceil, .floor, .trunc, .nearest, .sqrt].map (.floatUnary w) ++
  [FloatBinary.add, .sub, .mul, .div, .min, .max, .copysign].map (.floatBinary w)

/-- The conversions of floats to one integer width, in the order of their codes. -/
def truncations (saturating : Bool) (target : Width) : List Conversion :=
  [.truncate saturating .w32 target .signed, .truncate saturating .w32 target .unsigned,
    .truncate saturating .w64 target .signed, .truncate saturating .w64 target .unsigned]

/-- The conversions of integers to one float width, in the order of their codes. -/
def conversionsTo (target : Width) : List Conversion :=
  [.convert .w32 target .signed, .convert .w32 target .unsigned,
    .convert .w64 target .signed, .convert .w64 target .unsigned]

/-- The code of the first of `oneByte`. -/
def firstCode : Nat := 0x45

/-- The numeric instructions with one-byte codes, in the order of their codes. -/
def oneByte : List NumericOp :=
  intCompares .w32 ++ intCompares .w64 ++ floatCompares .w32 ++ floatCompares .w64 ++
  intArithmetic .w32 ++ intArithmetic .w64 ++ floatArithmetic .w32 ++ floatArithmetic .w64 ++
  ([Conversion.wrap] ++ truncations false .w32 ++
    [Conversion.extend .signed, .extend .unsigned] ++ truncations false .w64 ++
    conversionsTo .w32 ++ [Conversion.demote] ++ conversionsTo .w64 ++
    [Conversion.promote, .toBits .w32, .toBits .w64, .ofBits .w32, .ofBits .w64]).map
      .conversion ++
  [.intUnary .w32 .extend8, .intUnary .w32 .extend16, .intUnary .w64 .extend8,
    .intUnary .w64 .extend16, .intUnary .w64 .extend32]

/-- The saturating conversions, in the order of their codes behind the byte `0xFC`. -/
def saturating : List NumericOp :=
  (truncations true .w32 ++ truncations true .w64).map .conversion

end NumericOp

end WasmEmbedding.Wasm
