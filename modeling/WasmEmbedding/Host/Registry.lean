import WasmEmbedding.Host.Program

/-! # The registry of host functions

Stores know host functions by number only. The registry gives out the numbers, each
once, and resolves them while they are live; a revoked number stays unknown.
-/
namespace WasmEmbedding.Host

/-- Where the shared data of an import object is kept. -/
structure ContextKey where
  val : Nat
  deriving DecidableEq, Repr

/-- The number of a registered host function. -/
structure FunctionId where
  val : Nat
  deriving DecidableEq, Repr

/-- What a call needs to run a host function. -/
structure Registration where
  body : List Value → Program
  context : Option ContextKey

/-- The live host functions. -/
structure Registry where
  /-- The number that is given out next. -/
  next : Nat := 1
  entries : List (FunctionId × Registration) := []

instance : Inhabited Registry := ⟨{}⟩

namespace Registry

/-- Gives a host function a number. -/
def register (r : Registry) (entry : Registration) : FunctionId × Registry :=
  (⟨r.next⟩, { next := r.next + 1, entries := r.entries ++ [(⟨r.next⟩, entry)] })

/-- The host function of a number. -/
def lookup (r : Registry) (id : FunctionId) : Except RegistryError Registration :=
  match r.entries.lookup id with
  | some e => .ok e
  | none => .error (.unknownHostFunction id.val)

/-- The number is live. -/
def contains (r : Registry) (id : FunctionId) : Bool := (r.entries.lookup id).isSome

/-- Takes a number back. -/
def revoke (r : Registry) (id : FunctionId) : Registry :=
  { r with entries := r.entries.filter fun e => e.1 ≠ id }

/-- Takes numbers back. -/
def revokeAll (r : Registry) (ids : List FunctionId) : Registry := ids.foldl revoke r

/-- How many live functions share some data. -/
def contextReferences (r : Registry) (key : ContextKey) : Nat :=
  (r.entries.filter fun e => e.2.context = some key).length

end Registry

end WasmEmbedding.Host
