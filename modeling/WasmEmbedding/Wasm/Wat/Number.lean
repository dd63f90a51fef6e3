import WasmEmbedding.Text.Basic
import WasmEmbedding.Text.Float

/-! # Numbers of the text format

Digits are decimal, or hexadecimal behind `0x`, with single underscores between them. A
signed integer may also be written as the unsigned one with the same bits; a float is
the one nearest to what is written, which must not be beyond all of them.
-/
namespace WasmEmbedding.Wasm.Wat.Number

/-- Digits of a base up to what is no digit, after those already read: their number,
their count and the rest. -/
def digits (base n count : Nat) (afterDigit : Bool) : List Char → Option (Nat × Nat × List Char)
  | [] => if afterDigit then some (n, count, []) else none
  | c :: rest =>
    match (Text.Hex.value? c).filter (· < base) with
    | some d => digits base (n * base + d) (count + 1) true rest
    | none =>
      if !afterDigit then none
      else if c == '_' then digits base n count false rest
      else some (n, count, c :: rest)

/-- Takes off a sign: whether it is a minus. -/
def sign : List Char → Bool × List Char
  | '-' :: rest => (true, rest)
  | '+' :: rest => (false, rest)
  | cs => (false, cs)

/-- Takes off the mark of the base. -/
def base : List Char → Nat × List Char
  | '0' :: 'x' :: rest => (16, rest)
  | cs => (10, cs)

/-- An integer: whether it has a minus, and the number without it. -/
def integer? (s : String) : Option (Bool × Nat) := do
  let (negative, cs) := sign s.toList
  let (b, cs) := base cs
  match ← digits b 0 0 false cs with
  | (n, _, []) => return (negative, n)
  | _ => none

/-- An unsigned integer of so many bits. -/
def unsigned? (bits : Nat) (s : String) : Option Nat := do
  match ← integer? s with
  | (false, n) => if n < Nat.pow 2 bits then return n else none
  | _ => none

/-- The bits of an integer that fits them with or without a sign. -/
def signed? (bits : Nat) (s : String) : Option Nat := do
  match ← integer? s with
  | (false, n) => if n < Nat.pow 2 bits then return n else none
  | (true, n) =>
    if n ≤ Nat.pow 2 (bits - 1) then return (Nat.pow 2 bits - n) % Nat.pow 2 bits else none

/-- The exponent behind its mark: a sign and decimal digits. -/
def exponent? (mark : Char) : List Char → Option Int
  | [] => some 0
  | c :: rest => do
    if c.toLower ≠ mark then none
    let (negative, cs) := sign rest
    match ← digits 10 0 0 false cs with
    | (n, _, []) => return if negative then -(n : Int) else n
    | _ => none

/-- The pattern of a number that is not negative. -/
def magnitude? (f : Text.FloatFormat) (cs : List Char) : Option Nat := do
  let (b, cs) := base cs
  let (n, _, cs) ← digits b 0 0 false cs
  let (n, places, cs) ←
    match cs with
    | '.' :: c :: rest =>
      if ((Text.Hex.value? c).filter (· < b)).isSome then digits b n 0 false (c :: rest)
      else some (n, 0, c :: rest)
    | ['.'] => some (n, 0, [])
    | cs => some (n, 0, cs)
  if b = 16 then f.ofScaled? n 2 ((← exponent? 'p' cs) - 4 * (places : Int))
  else f.ofScaled? n 10 ((← exponent? 'e' cs) - (places : Int))

/-- The pattern of a float without its sign. -/
def pattern? (f : Text.FloatFormat) (cs : List Char) : Option Nat :=
  if cs = "inf".toList then some f.infinity
  else if cs = "nan".toList then some (f.infinity + Nat.pow 2 (f.fractionBits - 1))
  else
    match cs with
    | 'n' :: 'a' :: 'n' :: ':' :: '0' :: 'x' :: rest => do
      match ← digits 16 0 0 false rest with
      | (n, _, []) =>
        if n = 0 ∨ Nat.pow 2 f.fractionBits ≤ n then none else return f.infinity + n
      | _ => none
    | cs => magnitude? f cs

/-- The pattern of a float. -/
def float? (f : Text.FloatFormat) (s : String) : Option Nat := do
  let (negative, cs) := sign s.toList
  let bits ← pattern? f cs
  return if negative then bits + Nat.pow 2 (f.exponentBits + f.fractionBits) else bits

end WasmEmbedding.Wasm.Wat.Number
