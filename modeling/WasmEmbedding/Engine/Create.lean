import WasmEmbedding.Engine.Store

/-! # Things made for the host

What a module asks for has been validated before a store makes it. What the host asks
for has not: a store holds it against its own rules first, and breaking one of them is
a `Misuse`. Beyond that a store may refuse a memory that is too large and a first value
that it cannot take in.
-/
namespace WasmEmbedding

/-- The maximum is not below the minimum. -/
def Wasm.Limits.inOrder (l : Wasm.Limits) : Bool := l.max.all (l.min ≤ ·)

/-- An operand is of a type. -/
def Operand.isOf : Wasm.ValType → Operand → Bool
  | .i32, .i32 _ => true
  | .i64, .i64 _ => true
  | .f32, .f32 _ => true
  | .f64, .f64 _ => true
  | .v128, .v128 _ => true
  | .ref r, .func _ => r = .funcRef
  | .ref r, .external _ => r = .externRef
  | .ref r, .anyNull => r = .null .any
  | _, _ => false

namespace Engine

open Wasm

/-- A rule of the engine that the host has broken. -/
inductive Misuse where
  /-- The maximum is below the minimum. -/
  | invertedLimits
  /-- No memory has so many pages. -/
  | tooManyPages
  /-- The first value is of another type. -/
  | otherType
  deriving DecidableEq, Repr

/-- The wording of a misuse. -/
def Misuse.message : Misuse → String
  | .invertedLimits => "maximum size is below the minimum size"
  | .tooManyPages => "memory size exceeds the limit of the address space"
  | .otherType => "value does not match the type"

/-- Why a store does not make something for the host. -/
inductive Refusal where
  | misuse (rule : Misuse)
  /-- The first value has no operand in this engine. -/
  | unsupported (e : ValueError)
  /-- The memory is larger than the store may have it. -/
  | exceedsCap
  /-- The first value belongs to another store. -/
  | foreign
  deriving DecidableEq, Repr

/-- The wording of a refusal. -/
def Refusal.message : Refusal → String
  | .misuse rule => rule.message
  | .unsupported e => e.message
  | .exceedsCap => "memory minimum size exceeds memory limits"
  | .foreign => "cross-Store values are not supported"

namespace Store

/-- Makes a table that is filled with a reference. -/
def newTable (s : Store) (type : TableType) (x : Operand) : Except Refusal (Nat × Store) :=
  if !type.limits.inOrder then .error (.misuse .invertedLimits)
  else if !x.isOf (.ref type.element) then .error (.misuse .otherType)
  else .ok (s.addTable ⟨type.element, type.limits.max, Array.replicate type.limits.min x⟩)

/-- Makes a memory. -/
def newMemory (s : Store) (type : MemoryType) : Except Refusal (Nat × Store) :=
  if !type.limits.inOrder then .error (.misuse .invertedLimits)
  else if maxPages < type.limits.max.getD type.limits.min then .error (.misuse .tooManyPages)
  else match s.addMemory type with
    | some r => .ok r
    | none => .error .exceedsCap

/-- Makes a global with a first value. -/
def newGlobal (s : Store) (type : GlobalType) (x : Operand) : Except Refusal (Nat × Store) :=
  if !x.belongsTo s.id then .error .foreign
  else if !x.isOf type.content then .error (.misuse .otherType)
  else .ok (s.addGlobal ⟨type, x⟩)

end Store

end Engine

end WasmEmbedding
