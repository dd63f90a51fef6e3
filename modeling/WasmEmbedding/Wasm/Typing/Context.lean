import WasmEmbedding.Wasm.Module
import WasmEmbedding.Wasm.Typing.Operands

/-! # What typing refers to

The index spaces of a module and the features of the engine. Types are held against
the features here: references other than the two nullable ones to functions and host
objects are refused always, and all references without reference types.
-/
namespace WasmEmbedding.Wasm.Typing

/-- The surroundings of an expression. -/
structure Context where
  features : Features
  types : Array FuncType
  functions : Array FuncType
  tables : Array TableType
  memories : Array MemoryType
  globals : Array GlobalType
  /-- How many of the globals are imported. -/
  importedGlobals : Nat
  elements : Array RefType
  dataCount : Option Nat
  /-- The functions that may be referred to: those that something outside of bodies
  mentions. -/
  declared : Nat → Bool
  locals : Array ValType := #[]
  results : List ValType := []

/-- An entry of an index space. -/
def entry {α : Type} (space : Array α) (what : String) (i : Nat) : Check α :=
  match space[i]? with
  | some x => .ok x
  | none => .error ("unknown " ++ what ++ " " ++ toString i)

/-- Something holds, or a diagnostic. -/
def require (holds : Bool) (diagnostic : String) : Check Unit :=
  if holds then .ok () else .error diagnostic

/-- The references that the engine has. -/
def checkRefType (features : Features) (r : RefType) : Check Unit := do
  require features.referenceTypes "reference types support is not enabled"
  require (r = .funcRef || r = .externRef) "reference type is not supported"

/-- The types that the engine has. -/
def checkValType (features : Features) : ValType → Check Unit
  | .v128 => require features.simd "SIMD support is not enabled"
  | .ref r => checkRefType features r
  | _ => .ok ()

namespace Context

variable (c : Context)

/-- The parameters and results of a block. -/
def blockType : BlockType → Check FuncType
  | .empty => .ok ⟨[], []⟩
  | .value t => do
    checkValType c.features t
    return ⟨[], [t]⟩
  | .type i => do
    require c.features.multiValue
      "blocks, loops, and ifs may only produce a resulttype when multi-value is not enabled"
    entry c.types "type" i

/-- A memory exists. -/
def checkMemory (i : Nat) : Check Unit := do
  let _ ← entry c.memories "memory" i

/-- An address of so many bytes; atomic instructions ask for the whole alignment. -/
def checkMemArg (arg : MemArg) (bytes : Nat) (exact : Bool) : Check Unit := do
  c.checkMemory arg.memory
  require (Nat.pow 2 arg.align ≤ bytes) "alignment must not be larger than natural"
  require (!exact || Nat.pow 2 arg.align = bytes)
    "atomic instructions must always specify maximum alignment"

end Context

end WasmEmbedding.Wasm.Typing
