import WasmEmbedding.Wasm.Binary.Write
import WasmEmbedding.Wasm.Wat.Code

/-! # Assembly of code

A row of steps becomes bytes from the first to the last. What is carried along is the
names of the open blocks, for the labels of branches; the function types, to which a
step may add one; and the blocks counted so far, for the names that listings show.
-/
namespace WasmEmbedding.Wasm.Wat

open Binary

/-- What is carried along a row of steps. -/
structure Assembly where
  table : TypeTable
  /-- The names of the open blocks, the innermost first. -/
  labels : List (Option String)
  blocks : Nat
  /-- What listings show for blocks, the last first. -/
  shown : List (Nat × String)

namespace Assembly

/-- Where a row of steps begins. -/
def start (table : TypeTable) : Assembly := ⟨table, [], 0, []⟩

end Assembly

/-- A computation that may add to what is carried along, or fail. -/
abbrev Assemble (α : Type) := StateT Assembly (Except String) α

namespace Assemble

/-- The index of a function type where one is needed. -/
def typeIndex (use : TypeUse) : Assemble Nat := do
  let a ← get
  let (i, table) := a.table.settle use
  set { a with table }
  return i

/-- The number of a label, counted from the inside. -/
def label (r : Ref) : Assemble Nat := do
  liftM (r.resolve (indexOf? (← get).labels))

/-- The type of a block: what is spelled out and fits no index needed none. -/
def blockType (use : TypeUse) : Assemble BlockType := do
  match use.index, use.signature.map Signature.type with
  | none, none => return .empty
  | none, some ⟨[], []⟩ => return .empty
  | none, some ⟨[], [t]⟩ => return .value t
  | _, _ => return .type (← typeIndex use)

/-- A mark may repeat the name of the block that it belongs to, and no other. -/
def checkLabel (label : Option String) : Assemble Unit := do
  match label, (← get).labels with
  | some s, open' :: _ => if open' ≠ some s then throw "mismatching label"
  | _, _ => return ()

/-- The bytes of an instruction. -/
def instr (i : Instr) : Assemble (List UInt8) := do
  match Write.instr i with
  | some bytes => return bytes
  | none => throw "instruction without a code"

/-- The byte that opens a block. -/
def code : BlockKind → UInt8
  | .block => 0x02
  | .loop => 0x03
  | .conditional => 0x04

/-- The bytes of a step. -/
def step : Step → Assemble (List UInt8)
  | .instr i => instr i
  | .br l => do instr (.br (← label l))
  | .brIf l => do instr (.brIf (← label l))
  | .brTable ls l => do
    let labels ← ls.mapM label
    instr (.brTable labels (← label l))
  | .callIndirect returns use table => do
    let type ← typeIndex use
    instr (if returns then .returnCallIndirect type table else .callIndirect type table)
  | .opening kind naming use => do
    let type ← blockType use
    modify fun a => { a with
      labels := naming.name :: a.labels
      blocks := a.blocks + 1
      shown := (naming.label.map fun s => (a.blocks, s)).toList ++ a.shown }
    return code kind :: Write.blockType type
  | .otherwise l => do
    checkLabel l
    return [0x05]
  | .finish l => do
    checkLabel l
    modify fun a => { a with labels := a.labels.tail }
    return [0x0B]

/-- The bytes of a row of steps and of the mark that ends it. -/
def expression (steps : List Step) : Assemble (List UInt8) := do
  return (← steps.mapM step).flatten ++ [0x0B]

end Assemble

/-- Whether a step mentions a data segment, which calls for their count ahead of all
code. -/
def Step.mentionsData : Step → Bool
  | .instr (.op (.memoryInit _ _)) => true
  | .instr (.op (.dataDrop _)) => true
  | _ => false

end WasmEmbedding.Wasm.Wat
