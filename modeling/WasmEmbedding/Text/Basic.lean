/-! # Hexadecimal and quoted texts

Hexadecimal digits are lower case; `Hex.ofBytes` and `Hex.toBytes?` are inverse to each
other on lower-case texts.

A description quotes the names in it: between double quotes, with a backslash before
quotes and backslashes, letters for the usual controls, and the code point of any
other character that does not show by itself. `isHidden` holds of the characters that
leave no mark of their own on a page: controls, formats, separators other than the
blank, surrogates' room and private use. `isCombining` holds of the marks of the common
combining blocks, which join the character before them.
-/
namespace WasmEmbedding.Text

/-! ## Hexadecimal digits -/

namespace Hex

/-- The digit of a number below sixteen. -/
def digit (n : Nat) : Char :=
  if n < 10 then Char.ofNat (48 + n) else Char.ofNat (87 + n)

/-- The number of a digit of either case. -/
def value? (c : Char) : Option Nat :=
  if '0' ≤ c ∧ c ≤ '9' then some (c.toNat - 48)
  else if 'a' ≤ c ∧ c ≤ 'f' then some (c.toNat - 87)
  else if 'A' ≤ c ∧ c ≤ 'F' then some (c.toNat - 55)
  else none

/-- The last `width` digits of a number, leading zeros included. -/
def ofNat (width n : Nat) : String :=
  String.ofList (go width n [])
where
  go : Nat → Nat → List Char → List Char
    | 0, _, acc => acc
    | w + 1, n, acc => go w (n / 16) (digit (n % 16) :: acc)

/-- Two digits a byte. -/
def ofBytes (bytes : List UInt8) : String :=
  String.ofList (bytes.flatMap fun b => [digit (b.toNat / 16), digit (b.toNat % 16)])

/-- Reads digits, at least one and nothing else. -/
def toNat? (s : String) : Option Nat :=
  if s.isEmpty then none
  else s.toList.foldl (fun acc c => do return (← acc) * 16 + (← value? c)) (some 0)

/-- Reads two digits a byte. -/
def toBytes? (s : String) : Option (List UInt8) :=
  go s.toList
where
  go : List Char → Option (List UInt8)
    | [] => some []
    | [_] => none
    | a :: b :: rest => do
      let high ← value? a
      let low ← value? b
      return UInt8.ofNat (high * 16 + low) :: (← go rest)

end Hex

/-! ## Characters that show -/

/-- Code points of assigned characters without a mark of their own, in order. -/
def hiddenRanges : List (Nat × Nat) := [
  (0x0, 0x1F), (0x7F, 0xA0), (0xAD, 0xAD), (0x600, 0x605), (0x61C, 0x61C), (0x6DD, 0x6DD),
  (0x70F, 0x70F), (0x890, 0x891), (0x8E2, 0x8E2), (0x1680, 0x1680), (0x180E, 0x180E),
  (0x2000, 0x200F), (0x2028, 0x202F), (0x205F, 0x2064), (0x2066, 0x206F), (0x3000, 0x3000),
  (0xD800, 0xF8FF), (0xFEFF, 0xFEFF), (0xFFF9, 0xFFFB), (0x110BD, 0x110BD),
  (0x110CD, 0x110CD), (0x13430, 0x13438), (0x1BCA0, 0x1BCA3), (0x1D173, 0x1D17A),
  (0xE0001, 0xE0001), (0xE0020, 0xE007F), (0xF0000, 0xFFFFD), (0x100000, 0x10FFFF)]

/-- Code points of the common combining blocks, in order. -/
def combiningRanges : List (Nat × Nat) := [
  (0x300, 0x36F), (0x483, 0x489), (0x591, 0x5BD), (0x610, 0x61A), (0x64B, 0x65F),
  (0x6D6, 0x6DC), (0x6DF, 0x6E4), (0x730, 0x74A), (0x7A6, 0x7B0), (0x93C, 0x93C),
  (0x94D, 0x94D), (0xE31, 0xE31), (0xE34, 0xE3A), (0xE47, 0xE4E), (0x1AB0, 0x1ACE),
  (0x1DC0, 0x1DFF), (0x200C, 0x200C), (0x20D0, 0x20F0), (0x302A, 0x302F), (0x3099, 0x309A),
  (0xFE00, 0xFE0F), (0xFE20, 0xFE2F), (0xFF9E, 0xFF9F), (0xE0100, 0xE01EF)]

/-- Membership in a list of ranges. -/
def inRanges (ranges : List (Nat × Nat)) (c : Char) : Bool :=
  ranges.any fun (low, high) => low ≤ c.toNat && c.toNat ≤ high

/-- A character without a mark of its own. -/
def isHidden (c : Char) : Bool := inRanges hiddenRanges c && c != ' '

/-- A mark that joins the character before it. -/
def isCombining (c : Char) : Bool := inRanges combiningRanges c

/-! ## Quotes -/

/-- The digits of a code point, without leading zeros. -/
def codePoint (c : Char) : String :=
  String.ofList (Nat.toDigits 16 c.toNat)

/-- A character inside quotes. -/
def quoteChar (c : Char) : String :=
  match c with
  | '\x00' => "\\0"
  | '\t' => "\\t"
  | '\n' => "\\n"
  | '\r' => "\\r"
  | '"' => "\\\""
  | '\\' => "\\\\"
  | c => if isHidden c || isCombining c then "\\u\x7b" ++ codePoint c ++ "\x7d" else c.toString

/-- A text in quotes. -/
def quote (s : String) : String :=
  "\"" ++ s.toList.foldl (fun acc c => acc ++ quoteChar c) "" ++ "\""

/-- Items between brackets. -/
def bracketed (items : List String) : String :=
  "[" ++ ", ".intercalate items ++ "]"

/-- Texts in quotes, between brackets. -/
def quotedList (names : List String) : String :=
  bracketed (names.map quote)

end WasmEmbedding.Text
