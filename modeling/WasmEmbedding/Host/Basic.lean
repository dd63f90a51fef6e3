import WasmEmbedding.Host.ImportObject
import WasmEmbedding.Wasi.FileSystem

/-! # The host

What the host has besides the machines: the registry of its functions, the data that
its functions share, the environments of the system interface, import objects under
names, a journal, files, and the standard streams, which all guests share. Every
engine store gets an identity of its own from here.
-/
namespace WasmEmbedding

open Host

/-- The state of the host. -/
structure Host where
  registry : Registry := {}
  contexts : Array SharedData := #[]
  environments : Array Wasi.Environment := #[]
  /-- The import objects under names. -/
  objects : List (String × ImportObject) := []
  /-- What host functions have written down, the first note first. -/
  journal : List String := []
  files : Wasi.FileSystem := .initial
  /-- What guests have not yet read of the standard input, in the pieces in which it
  arrives. -/
  stdin : List (List UInt8) := []
  stdout : List UInt8 := []
  stderr : List UInt8 := []
  /-- How many stores have been made. -/
  stores : Nat := 0
  deriving Inhabited

namespace Host

/-- The identity of a new store. -/
def newStore (h : Host) : StoreId × Host := (⟨h.stores⟩, { h with stores := h.stores + 1 })

/-! ## Shared data -/

/-- Keeps the shared data of a new import object. -/
def keepContext (h : Host) (data : SharedData) : ContextKey × Host :=
  (⟨h.contexts.size⟩, { h with contexts := h.contexts.push data })

/-- Shared data. -/
def context? (h : Host) (key : ContextKey) : Option SharedData := h.contexts[key.val]?

/-- Replaces shared data. -/
def setContext (h : Host) (key : ContextKey) (data : SharedData) : Host :=
  { h with contexts := h.contexts.setIfInBounds key.val data }

/-! ## Environments -/

/-- Keeps the environment of a new import object. -/
def keepEnvironment (h : Host) (e : Wasi.Environment) : EnvironmentKey × Host :=
  (⟨h.environments.size⟩, { h with environments := h.environments.push e })

/-- An environment. -/
def environment (h : Host) (key : EnvironmentKey) : Wasi.Environment :=
  h.environments[key.val]?.getD .empty

/-- Replaces an environment. -/
def setEnvironment (h : Host) (key : EnvironmentKey) (e : Wasi.Environment) : Host :=
  { h with environments := h.environments.setIfInBounds key.val e }

/-- A new import object for the system interface. -/
def newWasiObject (h : Host) (e : Wasi.Environment) : ImportObject × Host :=
  let (key, h) := h.keepEnvironment e
  (.wasi key, h)

/-- The environment of an import object for the system interface. -/
def environmentOf? (h : Host) (o : ImportObject) : Option Wasi.Environment :=
  o.environment.map h.environment

/-- Replaces the environment of an import object. Machines that have linked the object
see the new one at their next instantiation. -/
def replaceEnvironment (h : Host) (o : ImportObject) (e : Wasi.Environment) :
    Except WasiError Host :=
  match o.environment with
  | some key => .ok (h.setEnvironment key e)
  | none => .error (.environmentError ("'" ++ o.moduleName ++ "' is not a WASI import object"))

/-! ## Import objects under names -/

/-- The import object under a name. -/
def object? (h : Host) (name : String) : Option ImportObject := h.objects.lookup name

/-- Takes away the import object under a name. -/
def forget (h : Host) (name : String) : Host :=
  { h with objects := h.objects.filter fun e => e.1 ≠ name }

/-- Puts a new state of an import object under its name. -/
def putObject (h : Host) (name : String) (o : ImportObject) : Host :=
  { h.forget name with objects := (name, o) :: (h.forget name).objects }

/-- Deletes the import object under a name. -/
def deleteObject (h : Host) (name : String) : Host :=
  match h.object? name with
  | some o =>
    let (o, registry) := o.delete h.registry
    { h with registry }.putObject name o
  | none => h

/-- Lets go of the import object under a name, which deletes it. -/
def dropObject (h : Host) (name : String) : Host := (h.deleteObject name).forget name

/-- Keeps an import object under a name and lets go of the one before it. -/
def keepObject (h : Host) (name : String) (o : ImportObject) : Host :=
  (h.dropObject name).putObject name o

/-- A function that answers with what it is given. -/
def echo : HostFunction := ⟨⟨[], []⟩, fun args => .finish (.ok args)⟩

/-- Makes an import object with one function and lets go of it; the number of the
function is spent. Says whether the object could be made. -/
def makeObject (h : Host) (moduleName : String) : Bool × Host :=
  match (do (← ImportObject.new moduleName none).addFunction h.registry "f" echo) with
  | .ok (o, registry) => (true, { h with registry := (o.delete registry).2 })
  | .error _ => (false, h)

/-! ## Journal and streams -/

/-- Writes something down. -/
def note (h : Host) (text : String) : Host := { h with journal := h.journal ++ [text] }

end Host

end WasmEmbedding
