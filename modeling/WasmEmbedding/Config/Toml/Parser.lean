import WasmEmbedding.Config.Toml.Scalar
import WasmEmbedding.Config.Toml.Table

/-! # TOML documents

`Toml.parse?` reads a whole text, line by line: headers choose a table, and keys give
values in the table chosen last.
-/
namespace WasmEmbedding.Config.Toml

/-- How deep lists and inline tables may nest, and how many parts a key may have. -/
def maxDepth : Nat := 79

/-- A key, split into the way to its last part and that part. -/
def splitKey? (cs : List Char) : Option ((List String × String) × List Char) := do
  let (parts, rest) ← key? (cs.length + 1) cs
  guard (parts.length ≤ maxDepth)
  let last ← parts.getLast?
  return ((parts.dropLast, last), rest)

/-- The key that stands for a date or time in a document. -/
def momentKey : String := "$moment"

mutual

/-- A value. Fuel bounds the steps, of which each reads a character; `depth` is how
many levels may still open. -/
def value? : Nat → Nat → List Char → Option (Document × List Char)
  | 0, _, _ => none
  | fuel + 1, depth, cs =>
    match cs with
    | '"' :: _ | '\'' :: _ => do
      let (s, rest) ← string? cs
      return (.text (some s), rest)
    | '[' :: rest =>
      match depth with
      | 0 => none
      | depth + 1 => do
        let (items, rest) ← items? fuel depth rest
        return (.list items, rest)
    | '\x7b' :: rest =>
      match depth with
      | 0 => none
      | depth + 1 =>
        match skipBlanks rest with
        | '\x7d' :: rest => some (.table [], rest)
        | rest => do
          let (node, rest) ← entries? fuel depth (.table false false []) rest
          return (node.toDocument, rest)
    | 't' :: 'r' :: 'u' :: 'e' :: rest => some (.boolean true, rest)
    | 'f' :: 'a' :: 'l' :: 's' :: 'e' :: rest => some (.boolean false, rest)
    | cs =>
      if looksLikeDate cs then do
        let rest ← moment? cs
        return (.table [(some momentKey, .text (some ""))], rest)
      else do
        let (n, rest) ← number? cs
        match n with
        | .integer n => return (.integer n, rest)
        | .float => return (.float, rest)

/-- The items of a list up to its closing bracket; lines may break between them. -/
def items? : Nat → Nat → List Char → Option (List Document × List Char)
  | 0, _, _ => none
  | fuel + 1, depth, cs => do
    match ← skipLines (cs.length + 1) cs with
    | ']' :: rest => return ([], rest)
    | cs =>
      let (v, rest) ← value? fuel depth cs
      match ← skipLines (rest.length + 1) rest with
      | ',' :: rest =>
        let (vs, rest) ← items? fuel depth rest
        return (v :: vs, rest)
      | ']' :: rest => return ([v], rest)
      | _ => none

/-- The entries of an inline table up to its closing brace, on one line. -/
def entries? : Nat → Nat → Node → List Char → Option (Node × List Char)
  | 0, _, _, _ => none
  | fuel + 1, depth, node, cs => do
    let ((path, key), rest) ← splitKey? cs
    match rest with
    | '=' :: rest =>
      let (v, rest) ← value? fuel depth (skipBlanks rest)
      let node ← match node with
        | .table i d es => Node.assign path key v i d es
        | _ => none
      match skipBlanks rest with
      | ',' :: rest => entries? fuel depth node rest
      | '\x7d' :: rest => return (node, rest)
      | _ => none
    | _ => none

end

/-- The tree so far and the path of the table chosen last. -/
structure Progress where
  tree : Node
  path : List String

/-- Changes the table at a path of the tree. -/
def Progress.change (p : Progress) (path : List String)
    (f : Bool → Bool → Node.Entries → Option Node) : Option Node :=
  match p.tree with
  | .table i d es => Node.alter false f path i d es
  | _ => none

/-- One line: what it does to the tree, and the text after it. -/
def line? (p : Progress) (cs : List Char) : Option (Progress × List Char) :=
  match skipBlanks cs with
  | '[' :: '[' :: rest => do
    let ((path, key), rest) ← splitKey? rest
    match rest with
    | ']' :: ']' :: rest =>
      let tree ← p.change path (Node.openNext key)
      return (⟨tree, path ++ [key]⟩, ← endOfLine? rest)
    | _ => none
  | '[' :: rest => do
    let ((path, key), rest) ← splitKey? rest
    match rest with
    | ']' :: rest =>
      let tree ← p.change path (Node.openTable key)
      return (⟨tree, path ++ [key]⟩, ← endOfLine? rest)
    | _ => none
  | cs =>
    match endOfLine? cs with
    | some rest => some (p, rest)
    | none => do
      let ((path, key), rest) ← splitKey? cs
      match rest with
      | '=' :: rest =>
        let rest := skipBlanks rest
        let (v, rest) ← value? (3 * rest.length + 3) maxDepth rest
        let tree ← p.change p.path (Node.assign path key v)
        return (⟨tree, p.path⟩, ← endOfLine? rest)
      | _ => none

/-- All lines. Fuel bounds their number. -/
def lines? : Nat → Progress → List Char → Option Node
  | _, p, [] => some p.tree
  | 0, _, _ :: _ => none
  | fuel + 1, p, cs => do
    let (p, rest) ← line? p cs
    lines? fuel p rest

/-- Drops a byte order mark. -/
def skipMark : List Char → List Char
  | c :: rest => if c.toNat = 0xFEFF then rest else c :: rest
  | [] => []

/-- Reads a whole text, a byte order mark at its start aside. -/
def parse? (text : String) : Option Document := do
  let cs := skipMark text.toList
  let tree ← lines? (cs.length + 1) ⟨.table false false [], []⟩ cs
  return tree.toDocument

end WasmEmbedding.Config.Toml
