import WasmEmbedding.Text.Utf8

/-! # Reading binary modules

A `Reader` takes something off the front of a byte string, or says why it cannot.
Numbers are LEB128: seven bits a byte, lowest first, in as few bytes as the width
needs or fewer with padding, never more.
-/
namespace WasmEmbedding.Wasm.Binary

/-- A reader of byte strings; what it fails with is a diagnostic. -/
abbrev Reader (α : Type) := StateT (List UInt8) (Except String) α

namespace Reader

/-- One byte. -/
def byte : Reader UInt8
  | [] => .error "unexpected end"
  | b :: rest => .ok (b, rest)

/-- The next byte, which stays. -/
def peek : Reader UInt8
  | [] => .error "unexpected end"
  | b :: rest => .ok (b, b :: rest)

/-- A number of bytes. -/
def take (n : Nat) : Reader (List UInt8) := fun bytes =>
  let taken := bytes.take n
  if taken.length = n then .ok (taken, bytes.drop n) else .error "unexpected end"

/-- Nothing is left. -/
def finished : Reader Unit
  | [] => .ok ((), [])
  | _ :: _ => .error "unexpected data at the end"

/-- An unsigned number of at most `bits` bits. The byte that reaches the width must
not go beyond it. Fuel bounds the bytes. -/
def unsignedFrom : Nat → Nat → Reader Nat
  | 0, _ => throw "integer representation too long"
  | fuel + 1, bits => do
    let b := (← byte).toNat
    if bits ≤ 7 then
      if b < Nat.pow 2 bits then return b
      else throw "integer too large"
    else if b < 128 then return b
    else return b - 128 + 128 * (← unsignedFrom fuel (bits - 7))

/-- An unsigned number of at most `bits` bits. -/
def unsigned (bits : Nat) : Reader Nat := unsignedFrom bits bits

/-- A signed number of at most `bits` bits. The byte that reaches the width must
repeat the sign in the bits it has to spare. Fuel bounds the bytes. -/
def signedFrom : Nat → Nat → Reader Int
  | 0, _ => throw "integer representation too long"
  | fuel + 1, bits => do
    let b := (← byte).toNat
    if bits ≤ 7 then
      if b < Nat.pow 2 (bits - 1) then return b
      else if 128 - Nat.pow 2 (bits - 1) ≤ b ∧ b < 128 then return (b : Int) - 128
      else throw "integer too large"
    else if b < 64 then return b
    else if b < 128 then return (b : Int) - 128
    else return (b : Int) - 128 + 128 * (← signedFrom fuel (bits - 7))

/-- A signed number of at most `bits` bits. -/
def signed (bits : Nat) : Reader Int := signedFrom bits bits

/-- An index, a count or a size. -/
def index : Reader Nat := unsigned 32

/-- The little-endian number of so many bytes. -/
def littleEndian (n : Nat) : Reader Nat := do
  return (← take n).foldr (fun b acc => b.toNat + 256 * acc) 0

/-- The longest name. -/
def maxNameBytes : Nat := 100000

/-- A name: its size and its text. -/
def name : Reader String := do
  let size ← index
  if maxNameBytes < size then throw "string size out of bounds"
  match Text.Utf8.decode? (← take size) with
  | some s => return s
  | none => throw "malformed UTF-8 encoding"

/-- So many things in a row. -/
def times {α : Type} (item : Reader α) : Nat → Reader (List α)
  | 0 => return []
  | n + 1 => return (← item) :: (← times item n)

/-- A count and so many things. -/
def vector {α : Type} (item : Reader α) : Reader (List α) := do
  times item (← index)

/-- Things as long as they can be read, and at most so many. -/
def prefixOf {α : Type} (item : Reader α) : Nat → List UInt8 → List α
  | 0, _ => []
  | n + 1, bytes =>
    match item bytes with
    | .ok (x, rest) => x :: prefixOf item n rest
    | .error _ => []

/-- Applies a reader to all of a byte string. -/
def whole {α : Type} (r : Reader α) (bytes : List UInt8) : Except String α := do
  let (x, rest) ← r bytes
  let _ ← finished rest
  return x

end Reader

end WasmEmbedding.Wasm.Binary
