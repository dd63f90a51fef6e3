import WasmEmbedding.Value.Signature

/-! # Tables, memories and globals that a host offers

Definitions are checked when they are made and need no store: `HostTable.define` and
`HostMemory.define` are the only ways to limits that a store would refuse to look at.
-/
namespace WasmEmbedding.Host

/-- The limits of a definition must not be inverted. -/
def checkLimits (minimum : UInt32) (maximum : Option UInt32) : Except LinkError Unit :=
  match maximum with
  | some m =>
    if m < minimum then
      .error (.invalidDefinition
        ("maximum " ++ toString m ++ " is below minimum " ++ toString minimum))
    else .ok ()
  | none => .ok ()

/-- A table of references, all null at first. -/
structure HostTable where
  element : ValueKind
  minimum : UInt32
  maximum : Option UInt32
  deriving DecidableEq, Repr

/-- Defines a table; the element kind is looked at before the limits. -/
def HostTable.define (element : ValueKind) (minimum : UInt32) (maximum : Option UInt32) :
    Except LinkError HostTable := do
  if element.isReference then
    checkLimits minimum maximum
    return ⟨element, minimum, maximum⟩
  else
    throw (.invalidDefinition ("table elements must be references, got " ++ element.name))

/-- A linear memory, with limits in pages. -/
structure HostMemory where
  minimum : UInt32
  maximum : Option UInt32
  deriving DecidableEq, Repr

/-- Defines a memory. -/
def HostMemory.define (minimum : UInt32) (maximum : Option UInt32) :
    Except LinkError HostMemory := do
  checkLimits minimum maximum
  if (maximum.getD minimum).toNat > Wasm.maxPages then
    throw (.invalidDefinition ("memory exceeds " ++ toString Wasm.maxPages ++ " pages"))
  return ⟨minimum, maximum⟩

/-- A global with its first value. -/
structure HostGlobal where
  value : Value
  isMutable : Bool
  deriving DecidableEq, Repr

end WasmEmbedding.Host
