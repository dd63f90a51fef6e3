/-! # Floats and decimals

A finite binary float is `m · 2^q`. Every real of a small interval around it
rounds to it, and among the decimals of that interval the ones with the fewest
digits are its shortest spellings. `shortest` finds the one nearest to the float,
by exact arithmetic: for one digit, two digits and so on it tests the two
neighbours of the float on the decimal grid of that many digits.

`FloatFormat.ofRatio?` is the way back: it rounds a nonnegative ratio to the pattern of
the nearest float, a tie to the even one; a ratio that rounds beyond the largest float
has none. `FloatFormat.ofScaled?` is the same for a number times a power of its base,
which may be far outside every format.
-/
namespace WasmEmbedding.Text

/-- The field widths of a binary interchange format. -/
structure FloatFormat where
  exponentBits : Nat
  fractionBits : Nat
  deriving DecidableEq, Repr

namespace FloatFormat

/-- The 32-bit format. -/
def single : FloatFormat := ⟨8, 23⟩

/-- The 64-bit format. -/
def double : FloatFormat := ⟨11, 52⟩

/-- What the exponent field is raised by. -/
def bias (f : FloatFormat) : Nat := Nat.pow 2 (f.exponentBits - 1) - 1

/-- Decimal digits that always suffice to read a value back. -/
def enoughDigits (f : FloatFormat) : Nat := (f.fractionBits + 1) * 30103 / 100000 + 2

end FloatFormat

/-- What a bit pattern of a format stands for, its sign aside. -/
inductive Magnitude where
  | nan
  | infinite
  /-- `m · 2^q`. -/
  | finite (m : Nat) (q : Int)
  deriving DecidableEq, Repr

namespace FloatFormat

/-- The sign bit. -/
def isNegative (f : FloatFormat) (bits : Nat) : Bool :=
  bits.testBit (f.exponentBits + f.fractionBits)

/-- Reads a bit pattern: a zero exponent field scales like the field one, without
the leading bit. -/
def magnitude (f : FloatFormat) (bits : Nat) : Magnitude :=
  let fraction := bits % Nat.pow 2 f.fractionBits
  let field := bits / Nat.pow 2 f.fractionBits % Nat.pow 2 f.exponentBits
  let scale : Int := (f.bias : Int) + (f.fractionBits : Int)
  if field = Nat.pow 2 f.exponentBits - 1 then
    if fraction = 0 then .infinite else .nan
  else if field = 0 then .finite fraction (1 - scale)
  else .finite (Nat.pow 2 f.fractionBits + fraction) ((field : Int) - scale)

end FloatFormat

/-- The decimal `digits · 10^exponent`. -/
structure Decimal where
  digits : Nat
  exponent : Int
  deriving DecidableEq, Repr

/-- A positive rational as a pair of naturals, `2^q` or `10^e` multiplied in. -/
def scaled (m base : Nat) (e : Int) : Nat × Nat :=
  if 0 ≤ e then (m * Nat.pow base e.toNat, 1) else (m, Nat.pow base (-e).toNat)

/-- Whether a decimal lies in the interval of reals that round to `m · 2^q`. The
ends belong to it iff `m` is even; `tight` says that the gap below is half as wide,
as it is under a power of two. -/
def readsBack (m : Nat) (q : Int) (tight : Bool) (d : Decimal) : Bool :=
  let (n, u) := scaled d.digits 10 d.exponent
  let (low, v) := scaled (4 * m - if tight then 1 else 2) 2 (q - 2)
  let (high, _) := scaled (4 * m + 2) 2 (q - 2)
  if m % 2 = 0 then decide (low * u ≤ n * v) && decide (n * v ≤ high * u)
  else decide (low * u < n * v) && decide (n * v < high * u)

/-- The distance of a decimal from `m · 2^q`, over a denominator that depends on the
exponents alone. -/
def distance (m : Nat) (q : Int) (d : Decimal) : Nat :=
  let (n, u) := scaled d.digits 10 d.exponent
  let (w, v) := scaled m 2 q
  (n * v - w * u) + (w * u - n * v)

/-- The neighbours of `m · 2^q` on the grid of step `10^e`. -/
def neighbours (m : Nat) (q e : Int) : Decimal × Decimal :=
  let (w, v) := scaled m 2 q
  let below := if 0 ≤ e then w / (v * Nat.pow 10 e.toNat) else w * Nat.pow 10 (-e).toNat / v
  (⟨below, e⟩, ⟨below + 1, e⟩)

/-- The count of decimal digits before the point of a positive rational, negative for
leading zeros after it: `10^(k-1) ≤ w/v < 10^k`. -/
def decimalOrder (w v : Nat) : Int :=
  if v ≤ w then ((Nat.toDigits 10 (w / v)).length : Int)
  else
    -- `v / w` rounded up has `j` digits, so `10^(-j) ≤ w / v`.
    let j := (Nat.toDigits 10 ((v - 1) / w)).length
    if w * Nat.pow 10 j ≥ v * 10 then 2 - (j : Int) else if w * Nat.pow 10 j ≥ v then 1 - (j : Int)
    else -(j : Int)

/-- Tests the grids of `n`, `n + 1`, … digits and answers the nearest hit of the
first grid that has one; a tie goes up to the neighbour with an even last digit. -/
def searchDigits (m : Nat) (q : Int) (tight : Bool) (order : Int) : Nat → Nat → Decimal
  | 0, n => (neighbours m q (order - n)).1
  | fuel + 1, n =>
    let (a, b) := neighbours m q (order - n)
    match readsBack m q tight a, readsBack m q tight b with
    | true, true =>
      if distance m q a < distance m q b then a
      else if distance m q b < distance m q a then b
      else if a.digits % 2 = 0 then a else b
    | true, false => a
    | false, true => b
    | false, false => searchDigits m q tight order fuel (n + 1)

/-- Drops trailing zero digits. -/
def stripZeros : Nat → Decimal → Decimal
  | 0, d => d
  | fuel + 1, d =>
    if d.digits ≠ 0 ∧ d.digits % 10 = 0 then stripZeros fuel ⟨d.digits / 10, d.exponent + 1⟩ else d

/-- The shortest decimal that reads back as the positive float `m · 2^q`. -/
def FloatFormat.shortest (f : FloatFormat) (m : Nat) (q : Int) : Decimal :=
  let (w, v) := scaled m 2 q
  let least : Int := 1 - ((f.bias : Int) + (f.fractionBits : Int))
  let tight := m = Nat.pow 2 f.fractionBits && decide (least < q)
  let d := searchDigits m q tight (decimalOrder w v) f.enoughDigits 1
  stripZeros (f.enoughDigits + 1) d

/-- Writes a decimal positionally, without an exponent and without a fraction that
is zero. -/
def Decimal.positional (d : Decimal) : String :=
  let digits := Nat.toDigits 10 d.digits
  if 0 ≤ d.exponent then String.ofList (digits ++ List.replicate d.exponent.toNat '0')
  else
    let places := (-d.exponent).toNat
    if places < digits.length then
      let whole := digits.length - places
      String.ofList (digits.take whole ++ '.' :: digits.drop whole)
    else
      String.ofList ('0' :: '.' :: (List.replicate (places - digits.length) '0' ++ digits))

/-- The text of a float given by its bits: shortest digits, positional, `-0` for a
negative zero. -/
def FloatFormat.render (f : FloatFormat) (bits : Nat) : String :=
  let sign := if f.isNegative bits then "-" else ""
  match f.magnitude bits with
  | .nan => "NaN"
  | .infinite => sign ++ "inf"
  | .finite m q => if m = 0 then sign ++ "0" else sign ++ (f.shortest m q).positional

/-! ## The float nearest to a number -/

/-- The integer nearest to `n / d`, a tie to the even one. -/
def roundRatio (n d : Nat) : Nat :=
  let quotient := n / d
  let twice := 2 * (n % d)
  if d < twice || (twice == d && quotient % 2 == 1) then quotient + 1 else quotient

/-- The exponent of the largest power of two that is at most `n / d`. -/
def floorLog (n d : Nat) : Int :=
  let guess : Int := (n.log2 : Int) - (d.log2 : Int)
  if d * Nat.pow 2 guess.toNat ≤ n * Nat.pow 2 (-guess).toNat then guess else guess - 1

namespace FloatFormat

/-- The exponent of the least positive float. -/
def leastExponent (f : FloatFormat) : Int := 1 - (f.bias : Int) - (f.fractionBits : Int)

/-- The pattern of infinity. -/
def infinity (f : FloatFormat) : Nat := (Nat.pow 2 f.exponentBits - 1) * Nat.pow 2 f.fractionBits

/-- The pattern of the float nearest to `n / d`. -/
def ofRatio? (f : FloatFormat) (n d : Nat) : Option Nat :=
  if n = 0 then some 0
  else
    let q := max (floorLog n d - (f.fractionBits : Int)) f.leastExponent
    let m := roundRatio (n * Nat.pow 2 (-q).toNat) (d * Nat.pow 2 q.toNat)
    let bits := (q - f.leastExponent).toNat * Nat.pow 2 f.fractionBits + m
    if bits < f.infinity then some bits else none

/-- Exponents beyond this are beyond every float. -/
def farExponent : Int := 5000

/-- The pattern of the float nearest to `m · base^e`. -/
def ofScaled? (f : FloatFormat) (m base : Nat) (e : Int) : Option Nat :=
  if m = 0 then some 0
  else if farExponent < e then none
  else if e + (m.log2 : Int) + 1 < -farExponent then some 0
  else
    let (n, d) := scaled m base e
    f.ofRatio? n d

end FloatFormat

end WasmEmbedding.Text
