import WasmEmbedding.Wasm.Wat.Token

/-! # Trees of the text format

The tokens of a text, with parentheses matched. Annotations that give names stay, as
lists whose first item is the word of the annotation; all others are left out together
with what they hold.
-/
namespace WasmEmbedding.Wasm.Wat

/-- A token, or a list in parentheses. -/
inductive Tree where
  | word (s : String)
  | name (s : String)
  | string (bytes : List UInt8)
  | list (items : List Tree)
  deriving Inhabited

namespace Tree

/-- The word that begins an annotation which gives a name. -/
def nameNote : String := "@name"

/-- A list that is not closed yet: what it holds so far, the last item first, and
whether it is left out. -/
structure Frame where
  isDropped : Bool
  items : List Tree

/-- Adds an item to the innermost list. -/
def push (t : Tree) : List Frame → List Frame
  | [] => []
  | f :: frames => { f with items := t :: f.items } :: frames

/-- Whether the innermost list is left out. -/
def isDropping : List Frame → Bool
  | [] => false
  | f :: _ => f.isDropped

/-- What one token does to the lists that are open, the innermost first; the last of
them is the text itself. -/
def step (frames : List Frame) : Token → Except String (List Frame)
  | .opening => return ⟨isDropping frames, []⟩ :: frames
  | .note n =>
    if n = "name" then return ⟨isDropping frames, [.word nameNote]⟩ :: frames
    else return ⟨true, []⟩ :: frames
  | .closing =>
    match frames with
    | f :: g :: frames =>
      if f.isDropped then return g :: frames
      else return push (.list f.items.reverse) (g :: frames)
    | _ => throw "unexpected closing parenthesis"
  | .word s => return push (.word s) frames
  | .name s => return push (.name s) frames
  | .string bytes => return push (.string bytes) frames
  | .reserved => if isDropping frames then return frames else throw "unexpected token"

/-- The trees of a sequence of tokens. -/
def ofTokens (tokens : List Token) : Except String (List Tree) := do
  match ← tokens.foldlM step [⟨false, []⟩] with
  | [text] => return text.items.reverse
  | _ => throw "unclosed parenthesis"

mutual

/-- The count of tokens and lists in a tree. -/
def size : Tree → Nat
  | .list items => 1 + sizes items
  | _ => 1

/-- The count of tokens and lists in trees. -/
def sizes : List Tree → Nat
  | [] => 0
  | t :: ts => size t + sizes ts

end

end Tree

/-- A reader of the items of a list. -/
abbrev Items (α : Type) := StateT (List Tree) (Except String) α

namespace Items

/-- Nothing is left. -/
def isDone : Items Bool := fun items => return (items.isEmpty, items)

/-- The next item, which stays. -/
def peek? : Items (Option Tree) := fun items => return (items.head?, items)

/-- Applies a reader to all items of a list. -/
def whole {α : Type} (r : Items α) (items : List Tree) : Except String α := do
  match ← r items with
  | (x, []) => return x
  | _ => throw "unexpected token"

/-- A word. -/
def word : Items String
  | .word s :: rest => return (s, rest)
  | _ => throw "keyword expected"

/-- Takes the next item if it is that word. -/
def takesWord (s : String) : Items Bool
  | .word t :: rest => return if t = s then (true, rest) else (false, .word t :: rest)
  | items => return (false, items)

/-- The bytes of a string. -/
def string : Items (List UInt8)
  | .string bytes :: rest => return (bytes, rest)
  | _ => throw "string expected"

/-- The text of a string. -/
def text : Items String := do
  match Text.Utf8.decode? (← string) with
  | some s => return s
  | none => throw "malformed UTF-8 encoding"

/-- A name, if one comes next. -/
def name? : Items (Option String)
  | .name s :: rest => return (some s, rest)
  | items => return (none, items)

/-- The word that begins the next item, if that is a list. -/
def head? : Items (Option String)
  | .list (.word s :: more) :: rest => return (some s, .list (.word s :: more) :: rest)
  | items => return (none, items)

/-- The next item, a list that begins with a word: reads what follows the word. -/
def inside {α : Type} (head : String) (r : Items α) : Items α
  | .list (.word s :: more) :: rest => do
    if s = head then return (← whole r more, rest) else throw "unexpected list"
  | _ => throw "list expected"

/-- The next item, if it is a list that begins with that word. -/
def inside? {α : Type} (head : String) (r : Items α) : Items (Option α) := do
  if (← head?) = some head then return some (← inside head r) else return none

/-- The lists that come next and begin with one of some words. -/
def lists {α : Type} (heads : List String) (r : String → Items α) : Items (List α)
  | .list (.word s :: more) :: rest => do
    if s ∈ heads then
      let x ← whole (r s) more
      let (xs, rest) ← lists heads r rest
      return (x :: xs, rest)
    else return ([], .list (.word s :: more) :: rest)
  | items => return ([], items)

/-- All items that are left, one by one. Each is read by itself. -/
def each {α : Type} (r : Items α) : Items (List α) := fun items => do
  return (← items.mapM fun t => whole r [t], [])

end Items

end WasmEmbedding.Wasm.Wat
