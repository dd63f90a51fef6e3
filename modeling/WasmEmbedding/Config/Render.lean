import WasmEmbedding.Config.Read
import WasmEmbedding.Config.Toml.Scalar

/-! # Writing documents as texts

`render` writes a document on one line. The notations differ in the characters that a text
between quotes shows as they are and in what stands between a key and its value, which a
`Style` holds. JSON has its documents in this form; TOML has values in it, and lays the
tables of a document out under headers (`Toml.write`).
-/
namespace WasmEmbedding.Config

/-- A character between double quotes: by itself if it may stand there, and otherwise
behind a backslash, or as four digits. -/
def quotedChar (plain : Char → Bool) (c : Char) : List Char :=
  if c = '"' ∨ c = '\\' then ['\\', c]
  else if plain c then [c]
  else '\\' :: 'u' :: (Text.Hex.ofNat 4 c.toNat).toList

/-- A text between double quotes. -/
def quoted (plain : Char → Bool) (s : String) : List Char :=
  '"' :: s.toList.flatMap (quotedChar plain) ++ ['"']

/-- An integer in decimal digits. -/
def integerText : Int → List Char
  | .ofNat n => Nat.toDigits 10 n
  | .negSucc n => '-' :: Nat.toDigits 10 (n + 1)

/-- What a notation writes in its own way. -/
structure Style where
  /-- The character may stand between quotes by itself. -/
  plain : Char → Bool
  /-- A key and what stands between it and its value. -/
  key : String → List Char

mutual

/-- A document on one line. A float is some float, and a text that names no character is
empty. -/
def render (s : Style) : Document → List Char
  | .null => ['n', 'u', 'l', 'l']
  | .boolean true => ['t', 'r', 'u', 'e']
  | .boolean false => ['f', 'a', 'l', 's', 'e']
  | .integer n => integerText n
  | .float => ['0', '.', '0']
  | .text t => quoted s.plain (t.getD "")
  | .list [] => ['[', ']']
  | .list (v :: vs) => '[' :: (render s v ++ renderItems s vs)
  | .table [] => ['\x7b', '\x7d']
  | .table ((k, v) :: es) => '\x7b' :: (s.key (k.getD "") ++ (render s v ++ renderEntries s es))

/-- The items of a list behind the first, and its closing bracket. -/
def renderItems (s : Style) : List Document → List Char
  | [] => [']']
  | v :: vs => ',' :: (render s v ++ renderItems s vs)

/-- The entries of a table behind the first, and its closing brace. -/
def renderEntries (s : Style) : List (Option String × Document) → List Char
  | [] => ['\x7d']
  | (k, v) :: es => ',' :: (s.key (k.getD "") ++ (render s v ++ renderEntries s es))

end

namespace Json

/-- What stands between quotes by itself: no control. -/
def isPlain (c : Char) : Bool := 0x20 ≤ c.toNat

/-- JSON without blanks. -/
def style : Style where
  plain := isPlain
  key k := quoted isPlain k ++ [':']

/-- The JSON text of a document. -/
def write (d : Document) : String := String.ofList (render style d)

end Json

namespace Toml

/-- A key, in quotes only if it needs them. -/
def keyText (k : String) : List Char :=
  if k ≠ "" ∧ k.toList.all isBareKey then k.toList else quoted isPlain k

/-- The keys of a path, with points between them. -/
def pathText : List String → List Char
  | [] => []
  | [k] => keyText k
  | k :: ks => keyText k ++ '.' :: pathText ks

/-- TOML on one line. -/
def style : Style where
  plain := isPlain
  key k := keyText k ++ [' ', '=', ' ']

/-- A line for each entry that is not a table. -/
def lines : List (Option String × Document) → List Char
  | [] => []
  | (_, .table _) :: es => lines es
  | (k, v) :: es => style.key (k.getD "") ++ (render style v ++ '\n' :: lines es)

mutual

/-- The header of a table, its lines, and then its own tables below it. -/
def underHeader (path : List String) : Document → List Char
  | .table es => '[' :: (pathText path ++ ']' :: '\n' :: (lines es ++ sections path es))
  | _ => []

/-- The tables among the entries of the table at a path. -/
def sections (path : List String) : List (Option String × Document) → List Char
  | [] => []
  | (k, v) :: es => underHeader (path ++ [k.getD ""]) v ++ sections path es

end

/-- The TOML text of a table. -/
def write : Document → String
  | .table es => String.ofList (lines es ++ sections [] es)
  | _ => ""

end Toml

end WasmEmbedding.Config
