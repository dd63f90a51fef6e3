import WasmEmbedding.Host.ImportObject
import WasmEmbedding.Text.Utf8

/-! # The logging function

Guests that import `env.log` write to the machine's log: a level, and where in their
memory the message is. A message that is not there is not logged, and the guest goes
on in any case.
-/
namespace WasmEmbedding.Host.Logging

/-- The module name of the function. -/
def moduleName : String := "env"

/-- What is logged for bytes that are no text. -/
def invalidText : String := "<invalid utf8>"

/-- A number that is not negative when read with a sign. -/
def isNonNegative (x : UInt32) : Bool := 0 ≤ x.toInt32.toInt

/-- The body of the function. -/
def body (args : List Value) : Program :=
  match args with
  | [.i32 level, .i32 pointer, .i32 length] =>
    if isNonNegative pointer && isNonNegative length then
      .readMemory pointer length fun
        | .ok bytes =>
          .log ⟨LogLevel.ofNumber level.toInt32.toInt, (Text.Utf8.decode? bytes).getD invalidText⟩
            (.finish (.ok []))
        | .error _ => .finish (.ok [])
    else .finish (.ok [])
  | _ => .finish (.ok [])

/-- The function. -/
def function : HostFunction := ⟨⟨[.i32, .i32, .i32], []⟩, body⟩

/-- An import object with the function. -/
def importObject (r : Registry) : Except LinkError (ImportObject × Registry) := do
  (← ImportObject.new moduleName none).addFunction r "log" function

end WasmEmbedding.Host.Logging
