/-! # SipHash-1-3

The keyed hash that fingerprints module bytes: one round per word of the message,
three rounds at its end. The key is zero here. `Sip.ofBytes` hashes a byte string
together with its length, so that neighbouring strings cannot run into each other.
-/
namespace WasmEmbedding.Hash.Sip

/-- The four words of the state. -/
structure State where
  v0 : UInt64
  v1 : UInt64
  v2 : UInt64
  v3 : UInt64
  deriving DecidableEq, Repr

/-- Rotation to the left. -/
def rotate (x : UInt64) (n : UInt64) : UInt64 := (x <<< n) ||| (x >>> (64 - n))

namespace State

/-- The state before the message, under the zero key. -/
def start : State :=
  ⟨0x736f6d6570736575, 0x646f72616e646f6d, 0x6c7967656e657261, 0x7465646279746573⟩

/-- One round. -/
def round (s : State) : State :=
  let v0 := s.v0 + s.v1
  let v2 := s.v2 + s.v3
  let v1 := rotate s.v1 13 ^^^ v0
  let v3 := rotate s.v3 16 ^^^ v2
  let v0 := rotate v0 32
  let v2 := v2 + v1
  let v0 := v0 + v3
  let v1 := rotate v1 17 ^^^ v2
  let v3 := rotate v3 21 ^^^ v0
  let v2 := rotate v2 32
  ⟨v0, v1, v2, v3⟩

/-- Takes in one word of the message. -/
def absorb (s : State) (word : UInt64) : State :=
  let t := { s with v3 := s.v3 ^^^ word }.round
  { t with v0 := t.v0 ^^^ word }

/-- The hash after the whole message. -/
def finish (s : State) : UInt64 :=
  let t := { s with v2 := s.v2 ^^^ 0xff }.round.round.round
  t.v0 ^^^ t.v1 ^^^ t.v2 ^^^ t.v3

end State

/-- The number of little-endian bytes. -/
def ofLittleEndian : List UInt8 → UInt64
  | [] => 0
  | b :: rest => b.toUInt64 ||| (ofLittleEndian rest <<< 8)

/-- The little-endian bytes of a number. -/
def toLittleEndian : Nat → Nat → List UInt8
  | 0, _ => []
  | width + 1, n => UInt8.ofNat (n % 256) :: toLittleEndian width (n / 256)

/-- Takes in the rest of a message of `total` bytes, eight at a time. The last word
holds the bytes that are left over, and the low byte of the length on top. -/
def absorbAll (total : Nat) (s : State) : List UInt8 → State
  | a :: b :: c :: d :: e :: f :: g :: h :: rest =>
    absorbAll total (s.absorb (ofLittleEndian [a, b, c, d, e, f, g, h])) rest
  | rest => s.absorb (ofLittleEndian rest ||| (UInt64.ofNat (total % 256) <<< 56))

/-- The hash of a message. -/
def hash (message : List UInt8) : UInt64 :=
  (absorbAll message.length .start message).finish

/-- The hash of a byte string, its length in front. -/
def ofBytes (bytes : List UInt8) : UInt64 :=
  hash (toLittleEndian 8 bytes.length ++ bytes)

end WasmEmbedding.Hash.Sip
