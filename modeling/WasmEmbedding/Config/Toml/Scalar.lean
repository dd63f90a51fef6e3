import WasmEmbedding.Text.Basic

/-! # TOML scalars

Readers for the parts of a TOML text that hold no other parts: blanks and comments,
keys, strings, numbers and dates. A reader answers what it read and the rest, or
nothing if the text breaks the grammar there.
-/
namespace WasmEmbedding.Config.Toml

/-- A blank within a line. -/
def isBlank (c : Char) : Bool := c == ' ' || c == '\t'

/-- Drops blanks within a line. -/
def skipBlanks (cs : List Char) : List Char := cs.dropWhile isBlank

/-- A character that comments and single-line strings may hold: no control but the
tab. -/
def isPlain (c : Char) : Bool := c == '\t' || (0x20 ≤ c.toNat && c.toNat != 0x7F)

/-- Drops one line end. -/
def newline? : List Char → Option (List Char)
  | '\n' :: rest => some rest
  | '\r' :: '\n' :: rest => some rest
  | _ => none

/-- Drops a comment, if one starts here. -/
def skipComment (cs : List Char) : List Char :=
  match cs with
  | '#' :: rest => rest.dropWhile isPlain
  | _ => cs

/-- Drops what may stand after a line's content: blanks, a comment, and the line end
or the end of the text. -/
def endOfLine? (cs : List Char) : Option (List Char) :=
  match skipComment (skipBlanks cs) with
  | [] => some []
  | rest => newline? rest

/-- Drops blanks, comments and line ends. Fuel bounds the lines. -/
def skipLines : Nat → List Char → Option (List Char)
  | 0, cs => some cs
  | fuel + 1, cs =>
    let rest := skipBlanks cs
    match rest with
    | '#' :: _ =>
      match skipComment rest with
      | [] => some []
      | after => (newline? after).bind (skipLines fuel)
    | _ =>
      match newline? rest with
      | some after => skipLines fuel after
      | none => some rest

/-- Characters of keys without quotes. -/
def isBareKey (c : Char) : Bool :=
  c.isAlphanum || c == '-' || c == '_'

/-- The character that `count` hexadecimal digits name. -/
def scalar? (count : Nat) (cs : List Char) : Option (Char × List Char) := do
  let digits := cs.take count
  guard (digits.length = count)
  let n ← Text.Hex.toNat? (String.ofList digits)
  guard (n < 0xD800 || (0xE000 ≤ n && n < 0x110000))
  return (Char.ofNat n, cs.drop count)

/-- The character of an escape, after its backslash. -/
def escape? : List Char → Option (Char × List Char)
  | 'b' :: rest => some ('\x08', rest)
  | 't' :: rest => some ('\t', rest)
  | 'n' :: rest => some ('\n', rest)
  | 'f' :: rest => some ('\x0c', rest)
  | 'r' :: rest => some ('\r', rest)
  | '"' :: rest => some ('"', rest)
  | '\\' :: rest => some ('\\', rest)
  | 'u' :: rest => scalar? 4 rest
  | 'U' :: rest => scalar? 8 rest
  | _ => none

/-- The rest of a single-line string after its opening quote. -/
def basic? : Nat → List Char → List Char → Option (String × List Char)
  | 0, _, _ => none
  | _, _, [] => none
  | _ + 1, acc, '"' :: rest => some (String.ofList acc.reverse, rest)
  | fuel + 1, acc, '\\' :: rest => do
    let (c, rest) ← escape? rest
    basic? fuel (c :: acc) rest
  | fuel + 1, acc, c :: rest => if isPlain c then basic? fuel (c :: acc) rest else none

/-- The rest of a single-line literal after its opening quote. -/
def literal? (cs : List Char) : Option (String × List Char) :=
  let inside := cs.takeWhile fun c => isPlain c && c != '\''
  match cs.drop inside.length with
  | '\'' :: rest => some (String.ofList inside, rest)
  | _ => none

/-- Drops blanks and line ends, after a line end that a backslash took out. -/
def skipSpace : Nat → List Char → List Char
  | 0, cs => cs
  | fuel + 1, cs =>
    match skipBlanks cs with
    | '\n' :: rest => skipSpace fuel rest
    | '\r' :: '\n' :: rest => skipSpace fuel rest
    | rest => rest

/-- How many quotes in a row begin here. -/
def quoteRun (q : Char) (cs : List Char) : Nat := (cs.takeWhile (· == q)).length

/-- The rest of a many-line string of either quote, after its opening quotes and the
line end that may follow them. Up to two quotes may stand before the closing ones;
line ends read as a line feed. -/
def multiline? (q : Char) : Nat → List Char → List Char → Option (String × List Char)
  | 0, _, _ => none
  | _, _, [] => none
  | fuel + 1, acc, c :: rest =>
    if c == q then
      let n := quoteRun q (c :: rest)
      if n < 3 then multiline? q fuel (c :: acc) rest
      else if n ≤ 5 then
        some (String.ofList (acc.reverse ++ List.replicate (n - 3) q), (c :: rest).drop n)
      else some (String.ofList (acc.reverse ++ List.replicate 2 q), (c :: rest).drop 5)
    else if c == '\\' && q == '"' then
      match newline? (skipBlanks rest) with
      | some after => multiline? q fuel acc (skipSpace (after.length + 1) after)
      | none => do
        let (e, after) ← escape? rest
        multiline? q fuel (e :: acc) after
    else
      match newline? (c :: rest) with
      | some after => multiline? q fuel ('\n' :: acc) after
      | none => if isPlain c then multiline? q fuel (c :: acc) rest else none

/-- Drops the line end that may follow opening quotes. -/
def afterOpening (cs : List Char) : List Char := (newline? cs).getD cs

/-- A string of any of the four forms. -/
def string? : List Char → Option (String × List Char)
  | '"' :: '"' :: '"' :: rest => multiline? '"' (rest.length + 1) [] (afterOpening rest)
  | '\'' :: '\'' :: '\'' :: rest => multiline? '\'' (rest.length + 1) [] (afterOpening rest)
  | '"' :: rest => basic? (rest.length + 1) [] rest
  | '\'' :: rest => literal? rest
  | _ => none

/-- One part of a key. -/
def simpleKey? (cs : List Char) : Option (String × List Char) :=
  match cs with
  | '"' :: rest => basic? (rest.length + 1) [] rest
  | '\'' :: rest => literal? rest
  | _ =>
    let name := cs.takeWhile isBareKey
    if name.isEmpty then none else some (String.ofList name, cs.drop name.length)

/-- A key: parts with points between them, blanks allowed around each. -/
def key? : Nat → List Char → Option (List String × List Char)
  | 0, _ => none
  | fuel + 1, cs => do
    let (part, rest) ← simpleKey? (skipBlanks cs)
    let rest := skipBlanks rest
    match rest with
    | '.' :: rest =>
      let (parts, rest) ← key? fuel rest
      return (part :: parts, rest)
    | _ => return ([part], rest)

/-- Digits of a base with underscores between them: their value, and the count. -/
def digits? (base : Nat) (cs : List Char) : Option ((Nat × Nat) × List Char) :=
  let isDigit := fun c => (Text.Hex.value? c).any (· < base)
  let run := cs.takeWhile fun c => isDigit c || c == '_'
  if (run.splitOn '_').all fun p => !p.isEmpty then
    let value := run.foldl (fun n c => ((Text.Hex.value? c).map (n * base + ·)).getD n) 0
    some ((value, (run.filter (· != '_')).length), cs.drop run.length)
  else none

/-- A decimal of `m · 10^e` that is too large for a 64-bit float: it is past the middle
between the largest float and the next power of two. -/
def overflows (m : Nat) (e : Int) : Bool :=
  let limit := Nat.pow 2 1024 - Nat.pow 2 970
  if m = 0 then false
  else if 400 < e then true
  else if 0 ≤ e then decide (limit ≤ m * Nat.pow 10 e.toNat)
  else decide (limit * Nat.pow 10 (min (-e).toNat (400 + Nat.log2 (m + 1))) ≤ m)

/-- What a number turns out to be. -/
inductive Number where
  | integer (n : Int)
  | float
  deriving DecidableEq, Repr

/-- The fraction of a decimal number, if there is one: its digits' value and their count. -/
def fraction? (cs : List Char) : Option (Option (Nat × Nat) × List Char) :=
  match cs with
  | '.' :: rest => do
    let (f, rest) ← digits? 10 rest
    return (some f, rest)
  | _ => some (none, cs)

/-- The exponent of a decimal number, if there is one. -/
def exponent? (cs : List Char) : Option (Option Int × List Char) :=
  match cs with
  | c :: rest =>
    if c == 'e' || c == 'E' then do
      let (down, digits) := match rest with
        | '-' :: r => (true, r)
        | '+' :: r => (false, r)
        | r => (false, r)
      let ((e, _), rest) ← digits? 10 digits
      return (some (if down then -(e : Int) else e), rest)
    else some (none, cs)
  | [] => some (none, [])

/-- The part of a decimal number after its sign. -/
def decimal? (negative : Bool) (cs : List Char) : Option (Number × List Char) := do
  let ((whole, count), rest) ← digits? 10 cs
  guard (count = 1 || cs.head? != some '0')
  let (fraction, rest) ← fraction? rest
  let (exponent, rest) ← exponent? rest
  match fraction, exponent with
  | none, none =>
    let n : Int := if negative then -(whole : Int) else whole
    guard (-(Nat.pow 2 63 : Int) ≤ n ∧ n < (Nat.pow 2 63 : Int))
    return (.integer n, rest)
  | f, e =>
    let (extra, places) := f.getD (0, 0)
    guard (negative || !overflows (whole * Nat.pow 10 places + extra) (e.getD 0 - places))
    return (.float, rest)

/-- A whole number of a base other than ten, after its mark. -/
def based? (base : Nat) (cs : List Char) : Option (Number × List Char) := do
  let ((n, _), rest) ← digits? base cs
  guard (n < Nat.pow 2 63)
  return (.integer n, rest)

/-- A number, special floats included. -/
def number? : List Char → Option (Number × List Char)
  | '0' :: 'x' :: rest => based? 16 rest
  | '0' :: 'o' :: rest => based? 8 rest
  | '0' :: 'b' :: rest => based? 2 rest
  | cs =>
    let (negative, rest) := match cs with
      | '-' :: r => (true, r)
      | '+' :: r => (false, r)
      | r => (false, r)
    match rest with
    | 'i' :: 'n' :: 'f' :: rest => some (.float, rest)
    | 'n' :: 'a' :: 'n' :: rest => some (.float, rest)
    | rest => decimal? negative rest

/-- A number of exactly `count` digits within bounds. -/
def field? (count low high : Nat) (cs : List Char) : Option (Nat × List Char) := do
  let digits := cs.take count
  guard (digits.length = count && digits.all Char.isDigit)
  let n := digits.foldl (fun n c => n * 10 + (c.toNat - 48)) 0
  guard (low ≤ n && n ≤ high)
  return (n, cs.drop count)

/-- One given character. -/
def mark? (c : Char) : List Char → Option (List Char)
  | x :: rest => if x == c then some rest else none
  | [] => none

/-- The days of a month. -/
def monthDays (year month : Nat) : Nat :=
  if month = 2 then
    if year % 4 = 0 ∧ (year % 100 ≠ 0 ∨ year % 400 = 0) then 29 else 28
  else if month = 4 ∨ month = 6 ∨ month = 9 ∨ month = 11 then 30
  else 31

/-- A time of day, with a fraction of a second if there is one. -/
def time? (cs : List Char) : Option (List Char) := do
  let (_, cs) ← field? 2 0 23 cs
  let cs ← mark? ':' cs
  let (_, cs) ← field? 2 0 59 cs
  let cs ← mark? ':' cs
  let (_, cs) ← field? 2 0 60 cs
  match cs with
  | '.' :: rest =>
    guard (rest.head?.any Char.isDigit)
    return rest.dropWhile Char.isDigit
  | _ => return cs

/-- The offset after a time, if there is one. -/
def offset? (cs : List Char) : Option (List Char) :=
  match cs with
  | c :: rest =>
    if c == 'Z' || c == 'z' then some rest
    else if c == '+' || c == '-' then do
      let (_, rest) ← field? 2 0 23 rest
      let rest ← mark? ':' rest
      let (_, rest) ← field? 2 0 59 rest
      return rest
    else some cs
  | [] => some []

/-- A date, with a time after it or not. -/
def date? (cs : List Char) : Option (List Char) := do
  let (year, cs) ← field? 4 0 9999 cs
  let cs ← mark? '-' cs
  let (month, cs) ← field? 2 1 12 cs
  let cs ← mark? '-' cs
  let (_, cs) ← field? 2 1 (monthDays year month) cs
  match cs with
  | c :: rest =>
    if c == 'T' || c == 't' then
      let rest ← time? rest
      offset? rest
    else if c == ' ' && rest.head?.any Char.isDigit then
      let rest ← time? rest
      offset? rest
    else return cs
  | [] => return []

/-- Whether a date or a time begins here rather than a number. -/
def looksLikeDate (cs : List Char) : Bool :=
  let run := cs.takeWhile Char.isDigit
  match cs.drop run.length with
  | '-' :: _ => run.length = 4
  | ':' :: _ => run.length = 2
  | _ => false

/-- A date, a time of day, or both. -/
def moment? (cs : List Char) : Option (List Char) :=
  if (cs.takeWhile Char.isDigit).length = 4 then date? cs else time? cs

end WasmEmbedding.Config.Toml
