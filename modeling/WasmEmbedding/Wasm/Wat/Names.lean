import WasmEmbedding.Wasm.Wat.Number
import WasmEmbedding.Wasm.Wat.Tree

/-! # Names of the text format

Everything that has an index may have a name, which stands for the index wherever it is
in force. What shows in a listing is the name too, unless an annotation gives another.
`Names` are those of a module, in the order of the fields that declare them; `Scope`
adds the locals of one function.
-/
namespace WasmEmbedding.Wasm.Wat

/-- The kinds of things that have indices in a module. -/
inductive Space where
  | type | function | table | memory | global | tag | element | data
  deriving DecidableEq, Repr

/-- The name of something and the one that listings show instead. -/
structure Naming where
  name : Option String
  shown : Option String
  deriving DecidableEq, Repr

namespace Naming

/-- What has no name. -/
def none : Naming := ⟨.none, .none⟩

/-- What a listing shows. -/
def label (n : Naming) : Option String := n.shown.orElse fun _ => n.name

/-- The name that may follow the keyword of what is declared. -/
def read : Items Naming := do
  let name ← Items.name?
  return ⟨name, ← Items.inside? Tree.nameNote Items.text⟩

end Naming

/-- The place of a name in a list of names that may be missing. -/
def indexOf? (names : List (Option String)) (s : String) : Option Nat :=
  names.idxOf? (some s)

/-- No name stands for two things. -/
def isUnambiguous (names : List (Option String)) : Bool :=
  let given := names.filterMap id
  given.eraseDups.length == given.length

/-- The names of a module. -/
abbrev Names := List (Space × Naming)

namespace Names

/-- The things of one kind. -/
def inSpace (names : Names) (s : Space) : List Naming :=
  names.filterMap fun entry => if entry.1 = s then some entry.2 else none

/-- The kinds of things, all of them. -/
def spaces : List Space := [.type, .function, .table, .memory, .global, .tag, .element, .data]

/-- No name stands for two things of a kind. -/
def isSound (names : Names) : Bool :=
  spaces.all fun s => isUnambiguous ((names.inSpace s).map Naming.name)

/-- The index of a name. -/
def index? (names : Names) (s : Space) (name : String) : Option Nat :=
  indexOf? ((names.inSpace s).map Naming.name) name

end Names

/-- The names in force in an expression. -/
structure Scope where
  names : Names
  locals : List (Option String)

/-- An index as it is written. -/
inductive Ref where
  | number (n : Nat)
  | name (s : String)
  deriving DecidableEq, Repr

namespace Ref

/-- The index that an item is. -/
def ofTree? : Tree → Option Ref
  | .word s => (Number.unsigned? 32 s).map .number
  | .name s => some (.name s)
  | _ => none

/-- Whether an item is meant to be an index. -/
def isIndex : Tree → Bool
  | .word s => (Number.integer? s).isSome
  | .name _ => true
  | _ => false

/-- An index. -/
def read : Items Ref := fun items =>
  match items with
  | t :: rest =>
    match ofTree? t with
    | some r => return (r, rest)
    | none => throw "index expected"
  | [] => throw "index expected"

/-- An index, if one comes next. -/
def read? : Items (Option Ref) := do
  match ← Items.peek? with
  | some t => if isIndex t then return some (← read) else return none
  | none => return none

/-- The number of an index, given what names stand for. -/
def resolve (index? : String → Option Nat) : Ref → Except String Nat
  | .number n => return n
  | .name s =>
    match index? s with
    | some n => return n
    | none => throw ("unknown name $" ++ s)

end Ref

namespace Names

/-- The number of an index of a kind. -/
def resolve (names : Names) (s : Space) (r : Ref) : Except String Nat :=
  r.resolve (names.index? s)

/-- An index of a kind. -/
def index (names : Names) (s : Space) : Items Nat := do
  liftM (names.resolve s (← Ref.read))

/-- An index of a kind, or the first of them. -/
def indexOrFirst (names : Names) (s : Space) : Items Nat := do
  match ← Ref.read? with
  | some r => liftM (names.resolve s r)
  | none => return 0

end Names

/-- An index of a local. -/
def Scope.localIndex (scope : Scope) : Items Nat := do
  liftM ((← Ref.read).resolve (indexOf? scope.locals))

end WasmEmbedding.Wasm.Wat
