/-! # UTF-8 bytes and text

Guest strings are bytes. `Utf8.decode?` reads well-formed UTF-8 only, and
`Utf8.decodeLossy` reads any bytes: each longest beginning of a character that the
next byte breaks off becomes one replacement character.
-/
namespace WasmEmbedding.Text.Utf8

/-- The bytes of a text. -/
def encode (s : String) : List UInt8 := s.toUTF8.toList

/-- The text that the bytes encode, if they are well formed. -/
def decode? (bytes : List UInt8) : Option String :=
  String.fromUTF8? ⟨bytes.toArray⟩

/-- For a leading byte: its payload, the count of bytes that follow, and the range of
the first of them. -/
def lead? (b : UInt8) : Option (Nat × Nat × UInt8 × UInt8) :=
  if b < 0x80 then some (b.toNat, 0, 0x80, 0xBF)
  else if 0xC2 ≤ b && b ≤ 0xDF then some (b.toNat % 32, 1, 0x80, 0xBF)
  else if b = 0xE0 then some (0, 2, 0xA0, 0xBF)
  else if b = 0xED then some (13, 2, 0x80, 0x9F)
  else if 0xE1 ≤ b && b ≤ 0xEF then some (b.toNat % 16, 2, 0x80, 0xBF)
  else if b = 0xF0 then some (0, 3, 0x90, 0xBF)
  else if 0xF1 ≤ b && b ≤ 0xF3 then some (b.toNat % 8, 3, 0x80, 0xBF)
  else if b = 0xF4 then some (4, 3, 0x80, 0x8F)
  else none

/-- What stands for bytes that encode no character. -/
def replacement : Char := Char.ofNat 0xFFFD

/-- Where a reader stands between bytes: between characters, or inside one with the
payload so far, the bytes still owed and the range of the next. -/
inductive Progress where
  | between
  | inside (payload owed : Nat) (low high : UInt8)

/-- Starts a character at a byte. -/
def Progress.start (b : UInt8) : List Char × Progress :=
  match lead? b with
  | none => ([replacement], .between)
  | some (p, 0, _, _) => ([Char.ofNat p], .between)
  | some (p, n + 1, low, high) => ([], .inside p (n + 1) low high)

/-- One byte: the characters it completes, and the state after it. -/
def Progress.step : Progress → UInt8 → List Char × Progress
  | .between, b => start b
  | .inside p owed low high, b =>
    if low ≤ b && b ≤ high then
      let p := p * 64 + b.toNat % 64
      if owed ≤ 1 then ([Char.ofNat p], .between) else ([], .inside p (owed - 1) 0x80 0xBF)
    else
      let (cs, next) := start b
      (replacement :: cs, next)

/-- The characters of the bytes from a state on; a character cut off at the end is
replaced too. -/
def Progress.finish : Progress → List UInt8 → List Char
  | .between, [] => []
  | .inside .., [] => [replacement]
  | q, b :: rest => (q.step b).1 ++ (q.step b).2.finish rest

/-- The text of any bytes, with replacements. -/
def decodeLossy (bytes : List UInt8) : String :=
  String.ofList (Progress.between.finish bytes)

end WasmEmbedding.Text.Utf8
