import WasmEmbedding.Config.Read
import WasmEmbedding.Text.Basic

/-! # JSON documents

`Json.parse?` reads one JSON value with blanks around it and nothing else. Numbers
with a fraction or an exponent, integers beyond 64 bits and the negative zero are
floats. A text with an unpaired surrogate is kept as one that names no character.
-/
namespace WasmEmbedding.Config.Json

/-- What separates tokens. -/
def isBlank (c : Char) : Bool := c == ' ' || c == '\t' || c == '\n' || c == '\r'

/-- Drops leading blanks. -/
def skip (cs : List Char) : List Char := cs.dropWhile isBlank

/-- Four hexadecimal digits. -/
def hex4? : List Char → Option (Nat × List Char)
  | a :: b :: c :: d :: rest => do
    let n ← Text.Hex.toNat? (String.ofList [a, b, c, d])
    return (n, rest)
  | _ => none

/-- The character of a one-letter escape. -/
def escape? : Char → Option Char
  | '"' => some '"'
  | '\\' => some '\\'
  | '/' => some '/'
  | 'b' => some '\x08'
  | 'f' => some '\x0c'
  | 'n' => some '\n'
  | 'r' => some '\r'
  | 't' => some '\t'
  | _ => none

/-- The rest of a text after its opening quote: its characters in reverse, or none if
an escape names no character. Fuel bounds the characters read. -/
def string? : Nat → Option (List Char) → List Char → Option (Option String × List Char)
  | 0, _, _ => none
  | _, _, [] => none
  | _ + 1, acc, '"' :: rest => some (acc.map fun cs => String.ofList cs.reverse, rest)
  | fuel + 1, acc, '\\' :: 'u' :: rest => do
    let (high, rest) ← hex4? rest
    if 0xD800 ≤ high ∧ high < 0xDC00 then
      match rest with
      | '\\' :: 'u' :: tail =>
        let (low, tail) ← hex4? tail
        if 0xDC00 ≤ low ∧ low < 0xE000 then
          let c := Char.ofNat (0x10000 + (high - 0xD800) * 0x400 + (low - 0xDC00))
          string? fuel (acc.map (c :: ·)) tail
        else string? fuel none rest
      | _ => string? fuel none rest
    else if 0xDC00 ≤ high ∧ high < 0xE000 then string? fuel none rest
    else string? fuel (acc.map (Char.ofNat high :: ·)) rest
  | fuel + 1, acc, '\\' :: c :: rest => do
    let e ← escape? c
    string? fuel (acc.map (e :: ·)) rest
  | fuel + 1, acc, c :: rest =>
    if c.toNat < 0x20 || c == '\\' then none else string? fuel (acc.map (c :: ·)) rest

/-- A fraction: a point and at least one digit. -/
def fraction? (cs : List Char) : Option (Bool × List Char) :=
  match cs with
  | '.' :: rest =>
    match rest with
    | d :: _ => if d.isDigit then some (true, rest.dropWhile Char.isDigit) else none
    | [] => none
  | _ => some (false, cs)

/-- An exponent: a letter, a sign or none, and at least one digit. -/
def exponent? (cs : List Char) : Option (Bool × List Char) :=
  match cs with
  | c :: rest =>
    if c == 'e' || c == 'E' then
      let rest := match rest with
        | s :: r => if s == '+' || s == '-' then r else rest
        | [] => []
      match rest with
      | d :: _ => if d.isDigit then some (true, rest.dropWhile Char.isDigit) else none
      | [] => none
    else some (false, cs)
  | [] => some (false, [])

/-- A number. -/
def number? (cs : List Char) : Option (Document × List Char) := do
  let (negative, cs) := match cs with
    | '-' :: rest => (true, rest)
    | _ => (false, cs)
  let digits := cs.takeWhile Char.isDigit
  let rest := cs.dropWhile Char.isDigit
  guard (!digits.isEmpty && (digits.head? != some '0' || digits.length = 1))
  let (fractional, rest) ← fraction? rest
  let (scaled, rest) ← exponent? rest
  let n : Nat := digits.foldl (fun n c => n * 10 + (c.toNat - 48)) 0
  if fractional || scaled then return (.float, rest)
  else if negative then
    return (if n = 0 || Nat.pow 2 63 < n then .float else .integer (-(n : Int)), rest)
  else return (if UInt64.size ≤ n then .float else .integer n, rest)

mutual

/-- A value, after blanks. Fuel bounds the steps, of which each reads a character. -/
def value? : Nat → List Char → Option (Document × List Char)
  | 0, _ => none
  | fuel + 1, cs =>
    match skip cs with
    | 'n' :: 'u' :: 'l' :: 'l' :: rest => some (.null, rest)
    | 't' :: 'r' :: 'u' :: 'e' :: rest => some (.boolean true, rest)
    | 'f' :: 'a' :: 'l' :: 's' :: 'e' :: rest => some (.boolean false, rest)
    | '"' :: rest => do
      let (s, rest) ← string? (rest.length + 1) (some []) rest
      return (.text s, rest)
    | '[' :: rest =>
      match skip rest with
      | ']' :: rest => some (.list [], rest)
      | rest => do
        let (items, rest) ← items? fuel rest
        return (.list items, rest)
    | '\x7b' :: rest =>
      match skip rest with
      | '\x7d' :: rest => some (.table [], rest)
      | rest => do
        let (entries, rest) ← entries? fuel rest
        return (.table entries, rest)
    | rest => number? rest

/-- The items of a list up to its closing bracket. -/
def items? : Nat → List Char → Option (List Document × List Char)
  | 0, _ => none
  | fuel + 1, cs => do
    let (v, rest) ← value? fuel cs
    match skip rest with
    | ',' :: rest =>
      let (vs, rest) ← items? fuel rest
      return (v :: vs, rest)
    | ']' :: rest => return ([v], rest)
    | _ => none

/-- The entries of a table up to its closing brace. -/
def entries? : Nat → List Char → Option (List (Option String × Document) × List Char)
  | 0, _ => none
  | fuel + 1, cs =>
    match skip cs with
    | '"' :: rest => do
      let (k, rest) ← string? (rest.length + 1) (some []) rest
      match skip rest with
      | ':' :: rest =>
        let (v, rest) ← value? fuel rest
        match skip rest with
        | ',' :: rest =>
          let (es, rest) ← entries? fuel rest
          return ((k, v) :: es, rest)
        | '\x7d' :: rest => return ([(k, v)], rest)
        | _ => none
      | _ => none
    | _ => none

end

/-- Reads a whole text. -/
def parse? (text : String) : Option Document := do
  let cs := text.toList
  let (d, rest) ← value? (2 * cs.length + 2) cs
  guard (skip rest).isEmpty
  return d

end WasmEmbedding.Config.Json
