import WasmEmbedding.Text.Basic
import WasmEmbedding.Text.Utf8

/-! # Tokens of the text format

A text is blanks, comments and tokens. A token is the longest run of the characters that
words may hold and of strings: one string alone, a word alone, or `$` before either,
which makes a name; a run that mixes them is reserved, as are some other characters.
Reserved tokens may stand in annotations that nobody reads and nowhere else.
-/
namespace WasmEmbedding.Wasm.Wat

/-- A token. -/
inductive Token where
  | opening
  | closing
  /-- The parenthesis that opens an annotation, together with its name. -/
  | note (name : String)
  /-- A keyword or a number. -/
  | word (s : String)
  /-- A name, without its mark. -/
  | name (s : String)
  | string (bytes : List UInt8)
  | reserved
  deriving DecidableEq, Repr

namespace Token

/-- The characters of words. -/
def isWordChar (c : Char) : Bool :=
  c.isAlphanum || "!#$%&'*+-./:<=>?@\\^_\x60|~".toList.contains c

/-- The characters between tokens. -/
def isBlank (c : Char) : Bool := c == ' ' || c == '\t' || c == '\n' || c == '\r'

/-- The characters that are reserved on their own. -/
def isReserved (c : Char) : Bool := ";,[]\x7b\x7d".toList.contains c

/-- The characters that change the direction of the text around them, and one that looks
like a joint without being one. Neither strings nor comments may hold them. -/
def isConfusing (c : Char) : Bool :=
  [0x202A, 0x202B, 0x202D, 0x202E, 0x2066, 0x2067, 0x2068, 0x2069, 0x206C].contains c.toNat

/-- The digits of a character's number, underscores between them; fuel bounds them. -/
def scalarDigits : Nat → Nat → Bool → List Char → Except String (Nat × List Char)
  | 0, _, _, _ => throw "unexpected end"
  | _, _, _, [] => throw "unexpected end"
  | fuel + 1, n, afterDigit, c :: rest =>
    match Text.Hex.value? c with
    | some d => scalarDigits fuel (min (n * 16 + d) 0x110000) true rest
    | none =>
      if c == '_' && afterDigit then scalarDigits fuel n false rest
      else if afterDigit then return (n, c :: rest)
      else throw "digit expected"

/-- The bytes of an escape and what follows it, after its backslash. -/
def escape (cs : List Char) : Except String (List UInt8 × List Char) :=
  match cs with
  | 't' :: rest => return ([0x09], rest)
  | 'n' :: rest => return ([0x0A], rest)
  | 'r' :: rest => return ([0x0D], rest)
  | '"' :: rest => return ([0x22], rest)
  | '\'' :: rest => return ([0x27], rest)
  | '\\' :: rest => return ([0x5C], rest)
  | 'u' :: '\x7b' :: rest => do
    let (n, rest) ← scalarDigits (rest.length + 1) 0 false rest
    match rest with
    | '\x7d' :: rest =>
      if n < 0xD800 ∨ 0xE000 ≤ n ∧ n < 0x110000 then
        return (Text.Utf8.encode (String.singleton (Char.ofNat n)), rest)
      else throw "invalid character number"
    | _ => throw "closing brace expected"
  | a :: b :: rest =>
    match Text.Hex.value? a, Text.Hex.value? b with
    | some high, some low => return ([UInt8.ofNat (high * 16 + low)], rest)
    | _, _ => throw "invalid escape"
  | _ => throw "invalid escape"

/-- The bytes of a string and what follows it, after its opening quote. Fuel bounds the
characters. -/
def stringBytes : Nat → List (List UInt8) → List Char → Except String (List UInt8 × List Char)
  | 0, _, _ => throw "unexpected end"
  | _, _, [] => throw "unexpected end"
  | _ + 1, acc, '"' :: rest => return (acc.reverse.flatten, rest)
  | fuel + 1, acc, '\\' :: rest => do
    let (bytes, rest) ← escape rest
    stringBytes fuel (bytes :: acc) rest
  | fuel + 1, acc, c :: rest =>
    if c.toNat < 0x20 || c.toNat == 0x7F then throw "control character in a string"
    else if isConfusing c then throw "confusing character in a string"
    else stringBytes fuel (Text.Utf8.encode (String.singleton c) :: acc) rest

/-- A run of characters of words and of strings. -/
structure Run where
  chars : List Char
  strings : List (List UInt8)

/-- The longest run and what follows it, after the parts already read. Fuel bounds the
parts. -/
def run : Nat → List Char → List (List UInt8) → List Char → Except String (Run × List Char)
  | 0, chars, strings, rest => return (⟨chars.reverse, strings.reverse⟩, rest)
  | _, chars, strings, [] => return (⟨chars.reverse, strings.reverse⟩, [])
  | fuel + 1, chars, strings, c :: rest => do
    if c == '"' then
      let (bytes, rest) ← stringBytes (rest.length + 1) [] rest
      run fuel chars (bytes :: strings) rest
    else if isWordChar c then run fuel (c :: chars) strings rest
    else return (⟨chars.reverse, strings.reverse⟩, c :: rest)

/-- The text of a name in quotes. -/
def quotedName (bytes : List UInt8) : Except String String :=
  match Text.Utf8.decode? bytes with
  | some "" => throw "empty name"
  | some s => return s
  | none => throw "malformed UTF-8 encoding"

/-- The token that a run is. -/
def ofRun (marked : Bool) (r : Run) : Except String Token :=
  match r.chars, r.strings with
  | [], [bytes] => return .string bytes
  | ['$'], [bytes] => if marked then return .name (← quotedName bytes) else return .reserved
  | '$' :: c :: rest, [] => return .name (String.ofList (c :: rest))
  | chars, [] => return .word (String.ofList chars)
  | _, _ => return .reserved

/-- What follows a comment in brackets, after its opening; comments nest. -/
def blockComment : Nat → List Char → Except String (List Char)
  | _, [] => throw "unterminated comment"
  | depth, '(' :: ';' :: rest => blockComment (depth + 1) rest
  | 0, ';' :: ')' :: rest => return rest
  | depth + 1, ';' :: ')' :: rest => blockComment depth rest
  | depth, c :: rest =>
    if isConfusing c then throw "confusing character in a comment" else blockComment depth rest

/-- What follows a comment to the end of its line. -/
def lineComment : List Char → Except String (List Char)
  | [] => return []
  | c :: rest =>
    if c == '\n' || c == '\r' then return c :: rest
    else if isConfusing c then throw "confusing character in a comment"
    else lineComment rest

/-- The first token, if there is one before the next blank or comment, and what
follows. -/
def next : List Char → Except String (Option Token × List Char)
  | [] => return (none, [])
  | '(' :: ';' :: rest => do return (none, ← blockComment 0 rest)
  | ';' :: ';' :: rest => do return (none, ← lineComment rest)
  | '(' :: '@' :: rest => do
    let (r, rest) ← run (rest.length + 1) [] [] rest
    match r.chars, r.strings with
    | [], [bytes] => return (some (.note (← quotedName bytes)), rest)
    | [], _ => throw "empty annotation"
    | chars, [] => return (some (.note (String.ofList chars)), rest)
    | _, _ => throw "malformed annotation"
  | '(' :: rest => return (some .opening, rest)
  | ')' :: rest => return (some .closing, rest)
  | c :: rest => do
    if isBlank c then return (none, rest)
    else if isReserved c then return (some .reserved, rest)
    else if c == '"' || isWordChar c then
      let (r, after) ← run (rest.length + 2) [] [] (c :: rest)
      return (some (← ofRun (c == '$') r), after)
    else throw "unexpected character"

/-- The tokens of a text, after those already read. Fuel bounds the steps. -/
def listFrom : Nat → List Token → List Char → Except String (List Token)
  | _, acc, [] => return acc.reverse
  | 0, _, _ :: _ => throw "unexpected end"
  | fuel + 1, acc, c :: rest => do
    let (token, rest) ← next (c :: rest)
    listFrom fuel (token.toList ++ acc) rest

/-- The tokens of a text. -/
def ofText (text : String) : Except String (List Token) :=
  let cs := text.toList
  listFrom cs.length [] cs

end Token

end WasmEmbedding.Wasm.Wat
