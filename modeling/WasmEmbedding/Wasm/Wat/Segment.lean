import WasmEmbedding.Wasm.Wat.Draft

/-! # Segments of the text format

Element and data segments: where they go and what they hold. The same forms stand inside
tables and memories that are declared together with their contents.
-/
namespace WasmEmbedding.Wasm.Wat

open Binary

/-- All items that are left. -/
def remaining : Items (List Tree) := fun items => return (items, [])

/-- The steps of all items that are left. -/
def expression (names : Names) : Items (List Step) := do
  liftM (steps ⟨names, []⟩ (← remaining))

/-- The next list, which holds one instruction and its operands. -/
def folded (names : Names) : Items (List Step) := fun items =>
  match items with
  | .list inner :: rest => do return (← steps ⟨names, []⟩ [.list inner], rest)
  | _ => throw "list expected"

/-- Where a segment goes. -/
inductive Placement where
  | passive
  | declared
  | active (target : Option Nat) (offset : List Step)

/-- The offset of an active segment. -/
def offset (names : Names) : Items (List Step) := do
  match ← Items.inside? "offset" (expression names) with
  | some steps => return steps
  | none => folded names

/-- What an active segment is copied to, if it is written, and the offset. -/
def active (names : Names) (s : Space) (head : String) : Items Placement := do
  let target ←
    if ← isNumberNext then some <$> names.index s
    else Items.inside? head (names.index s)
  return .active target (← offset names)

/-- What an element segment holds. -/
inductive Elements where
  | functions (indices : List Nat)
  | expressions (type : RefType) (items : List (List Step))

/-- An item of an element segment that is an expression. -/
def elementItem (names : Names) : Items (List Step) := do
  match ← Items.inside? "item" (expression names) with
  | some steps => return steps
  | none =>
    match ← folded names with
    | [step] => return [step]
    | _ => throw "single instruction expected"

/-- Functions by their indices. -/
def functionIndices (names : Names) : Items Elements := do
  return .functions (← Items.each (names.index .function))

/-- The references of a type that is already known. -/
def elementsOf (names : Names) (type : RefType) : Items Elements := do
  match ← Items.peek? with
  | some (.list _) => return .expressions type (← Items.each (elementItem names))
  | some _ => if type = .funcRef then functionIndices names else throw "list expected"
  | none => return .expressions type []

/-- What an element segment holds, behind where it goes. -/
def segmentElements (names : Names) : Items Elements := do
  if ← Items.takesWord "func" then functionIndices names
  else
    match ← refType? names with
    | some type => elementsOf names type
    | none => functionIndices names

/-- What a table holds that is declared together with its contents. -/
def tableContents (names : Names) (type : RefType) : Items Elements := do
  match ← Items.peek? with
  | some (.list _) => elementsOf names type
  | _ => functionIndices names

/-- The count of the references. -/
def Elements.length : Elements → Nat
  | .functions is => is.length
  | .expressions _ xs => xs.length

/-- Adds an element segment. -/
def Draft.addElements (d : Draft) (p : Placement) (xs : Elements) : Except String Draft := do
  let (bit, kind, items, d) ←
    match xs with
    | .functions is => pure (0, [0x00], is.map Write.unsigned, d)
    | .expressions type xs => do
      let (items, d) ← d.constants xs
      pure (4, Write.refType type, items, d)
  let (flags, place, d) ←
    match p with
    | .passive => pure (1, kind, d)
    | .declared => pure (3, kind, d)
    | .active none offset => do
      let (offset, d) ← d.constant offset
      if kind = [0x00] ∨ kind = [0x70] then pure (0, offset, d)
      else pure (2, Write.unsigned 0 ++ offset ++ kind, d)
    | .active (some t) offset => do
      let (offset, d) ← d.constant offset
      pure (2, Write.unsigned t ++ offset ++ kind, d)
  let entry := Write.unsigned (flags + bit) ++ place ++ Write.vector items
  return { d with elements := d.elements ++ [entry] }.declare .element

/-- Numbers in a data segment, behind the word for their type: their bytes. -/
def dataNumbers (head : String) : Items (List UInt8) := do
  let all (bytes : Nat) (item : Items Nat) : Items (List UInt8) := do
    return (← Items.each item).flatMap (Write.littleEndian bytes)
  match head with
  | "i8" => all 1 (integer 8)
  | "i16" => all 2 (integer 16)
  | "i32" => all 4 (integer 32)
  | "i64" => all 8 (integer 64)
  | "f32" => all 4 (float .w32)
  | "f64" => all 8 (float .w64)
  | _ => throw "data expected"

/-- The bytes of one item of a data segment. -/
def dataItem : Items (List UInt8) := do
  match ← Items.head? with
  | some head => Items.inside head (dataNumbers head)
  | none => Items.string

/-- The bytes of all items that are left. -/
def dataBytes : Items (List UInt8) := do return (← Items.each dataItem).flatten

/-- Whether a string comes next. -/
def isStringNext : Items Bool := do
  match ← Items.peek? with
  | some (.string _) => return true
  | _ => return false

/-- Adds a data segment. -/
def Draft.addData (d : Draft) (p : Placement) (bytes : List UInt8) : Except String Draft := do
  let (place, d) ←
    match p with
    | .active target offset => do
      let (offset, d) ← d.constant offset
      match target.getD 0 with
      | 0 => pure (Write.unsigned 0 ++ offset, d)
      | m => pure (Write.unsigned 2 ++ Write.unsigned m ++ offset, d)
    | _ => pure (Write.unsigned 1, d)
  return { d with datas := d.datas ++ [place ++ Write.sized bytes] }.declare .data

end WasmEmbedding.Wasm.Wat
