import WasmEmbedding.Error
import WasmEmbedding.Text.Basic
import WasmEmbedding.Value.Basic

/-! # Signatures

A `Signature` lists the kinds of a function's parameters and results. `ofType?` reads
it off an engine function type and fails at the first type without a host kind,
parameters before results. `check` holds values against kinds: the counts first, then
position by position.
-/
namespace WasmEmbedding

/-- The kinds that a function takes and returns. -/
structure Signature where
  params : List ValueKind
  returns : List ValueKind
  deriving DecidableEq, Repr, Inhabited

namespace Signature

/-- The engine function type. -/
def toType (s : Signature) : Wasm.FuncType :=
  ⟨s.params.map ValueKind.toType, s.returns.map ValueKind.toType⟩

/-- The kind of an engine type, or the error that names the type. -/
def kindOf (t : Wasm.ValType) : Except ValueError ValueKind :=
  match ValueKind.ofType? t with
  | some k => .ok k
  | none => .error (.unsupportedType t.text)

/-- The signature of an engine function type. -/
def ofType? (t : Wasm.FuncType) : Except ValueError Signature := do
  let params ← t.params.mapM kindOf
  let returns ← t.results.mapM kindOf
  return ⟨params, returns⟩

/-- The usual form, `(i32, externref) -> (funcref)`. -/
def text (s : Signature) : String :=
  "(" ++ ", ".intercalate (s.params.map ValueKind.name) ++ ") -> (" ++
    ", ".intercalate (s.returns.map ValueKind.name) ++ ")"

/-- The field-by-field description. -/
def describe (s : Signature) : String :=
  "FunctionType \x7b params: " ++ Text.bracketed (s.params.map ValueKind.label) ++
    ", returns: " ++ Text.bracketed (s.returns.map ValueKind.label) ++ " \x7d"

end Signature

namespace Value

/-- Finds the first value that has another kind than the one at its position. -/
def checkFrom (index : Nat) : List Value → List ValueKind → Except ValueError Unit
  | v :: vs, k :: ks =>
    if v.kind = k then checkFrom (index + 1) vs ks
    else .error (.typeMismatch index k v.kind)
  | _, _ => .ok ()

/-- Holds values against the kinds that a signature declares. -/
def check (values : List Value) (kinds : List ValueKind) : Except ValueError Unit :=
  if values.length = kinds.length then checkFrom 0 values kinds
  else .error (.arityMismatch kinds.length values.length)

end Value

end WasmEmbedding
