import WasmEmbedding.Value.Signature

/-! # Bodies of host functions

A host function body is a `Program`: it asks for one thing after the other, goes on
with each answer, and finishes with values or an error. What it can ask for is what a
calling frame gives access to, the caller's memory, the machine's log and the shared
data of the import object, and what the host itself keeps, import objects under names
and a journal.

A `LogEntry` is what a host function writes down on behalf of the guest.
-/
namespace WasmEmbedding.Host

/-- How urgent an entry is. -/
inductive LogLevel where
  | debug | info | warn | error
  deriving DecidableEq, Repr, Inhabited

namespace LogLevel

/-- The level that a guest means by a number; numbers without a level of their own
mean `info`. -/
def ofNumber (n : Int) : LogLevel :=
  if n = 0 then .debug else if n = 2 then .warn else if n = 3 then .error else .info

/-- The number of a level. -/
def number : LogLevel → Int
  | .debug => 0
  | .info => 1
  | .warn => 2
  | .error => 3

/-- The name of a level. -/
def name : LogLevel → String
  | .debug => "DEBUG"
  | .info => "INFO"
  | .warn => "WARN"
  | .error => "ERROR"

@[simp] theorem ofNumber_number (l : LogLevel) : ofNumber l.number = l := by cases l <;> rfl

end LogLevel

/-- An entry. -/
structure LogEntry where
  level : LogLevel
  message : String
  deriving DecidableEq, Repr

/-- The data that the functions of an import object share. -/
inductive SharedData where
  | counter (value : UInt64)
  | text (value : String)
  deriving DecidableEq, Repr

/-- A host function body under way. -/
inductive Program where
  /-- The end, with values for the guest or an error that ends the guest. -/
  | finish (result : Except HostFunctionError (List Value))
  /-- Bytes of the caller's memory. -/
  | readMemory (offset length : UInt32) (next : Except HostFunctionError (List UInt8) → Program)
  /-- Replaces bytes of the caller's memory. -/
  | writeMemory (offset : UInt32) (bytes : List UInt8)
      (next : Except HostFunctionError Unit → Program)
  /-- Appends an entry to the machine's log. -/
  | log (entry : LogEntry) (next : Program)
  /-- The length of the machine's log, and the exit code. -/
  | inspect (next : Nat → Option UInt32 → Program)
  /-- The shared data, if the import object has any. -/
  | shared (next : Option SharedData → Program)
  /-- Replaces the shared data. -/
  | share (data : SharedData) (next : Program)
  /-- Writes something down in the host's journal. -/
  | note (text : String) (next : Program)
  /-- Deletes the import object that the host keeps under a name. -/
  | deleteObject (name : String) (next : Program)
  /-- Lets go of the import object that the host keeps under a name. -/
  | dropObject (name : String) (next : Program)
  /-- Makes an import object of a module name with one function and lets go of it; says
  whether it could be made. -/
  | makeObject (moduleName : String) (next : Bool → Program)

/-- A host function: its body is given values of the parameter kinds. -/
structure HostFunction where
  signature : Signature
  body : List Value → Program

/-- The description of a host function. -/
def HostFunction.describe (f : HostFunction) : String :=
  "HostFunction \x7b ty: " ++ f.signature.describe ++ ", .. \x7d"

end WasmEmbedding.Host
