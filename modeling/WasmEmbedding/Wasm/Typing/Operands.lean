import WasmEmbedding.Wasm.Types

/-! # Operand types

The types on the stack of a block, the last one first. Behind an instruction that does
not go on, the stack is *dead*: it gives out an operand of unknown type whenever it is
empty, and an unknown type agrees with every other.
-/
namespace WasmEmbedding.Wasm.Typing

/-- What typing fails with is a diagnostic. -/
abbrev Check (α : Type) := Except String α

/-- The stack of a block. -/
structure Operands where
  /-- The types, the last one first; `none` is unknown. -/
  types : List (Option ValType) := []
  dead : Bool := false
  deriving DecidableEq, Repr

namespace Operands

/-- The stack behind an instruction that does not go on. -/
def afterJump : Operands := ⟨[], true⟩

/-- Puts a type on the stack. -/
def push (s : Operands) (t : ValType) : Operands := { s with types := some t :: s.types }

/-- Puts types on the stack, the last one on top. -/
def pushAll (s : Operands) (ts : List ValType) : Operands := ts.foldl push s

/-- Takes any type. -/
def popAny (s : Operands) : Check (Option ValType × Operands) :=
  match s.types with
  | t :: rest => .ok (t, { s with types := rest })
  | [] =>
    if s.dead then .ok (none, s)
    else .error "type mismatch: expected a type but nothing on stack"

/-- Takes a given type. -/
def pop (s : Operands) (t : ValType) : Check Operands := do
  match ← s.popAny with
  | (none, s) => return s
  | (some u, s) =>
    if u = t then return s
    else throw ("type mismatch: expected " ++ t.text ++ ", found " ++ u.text)

/-- Takes types of which the first is on top. -/
def popTop (s : Operands) : List ValType → Check Operands
  | [] => .ok s
  | t :: rest => do (← s.pop t).popTop rest

/-- Takes types of which the last is on top. -/
def popAll (s : Operands) (ts : List ValType) : Check Operands := s.popTop ts.reverse

/-- Nothing may be left. -/
def finish (s : Operands) : Check Unit :=
  if s.types.isEmpty then .ok ()
  else .error "type mismatch: values remaining on stack at end of block"

/-- Replaces the operands of a function by its results. -/
def apply (s : Operands) (t : FuncType) : Check Operands := do
  return (← s.popAll t.params).pushAll t.results

end Operands

end WasmEmbedding.Wasm.Typing
