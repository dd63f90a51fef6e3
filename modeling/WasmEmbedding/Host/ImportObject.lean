import WasmEmbedding.Host.Definition
import WasmEmbedding.Host.Registry
import WasmEmbedding.Text.Basic
import WasmEmbedding.Wasi.Environment

/-! # Import objects

An `ImportObject` is a bundle of named symbols that guests import from one module name.
Adding a function registers it; deleting the object revokes every function it owns and
leaves it without symbols for good. An object for the system interface has no symbols
of its own and refuses any.
-/
namespace WasmEmbedding.Host

/-- Where the environment of an import object for the system interface is kept. -/
structure EnvironmentKey where
  val : Nat
  deriving DecidableEq, Repr

/-- A symbol. -/
inductive Symbol where
  | function (id : FunctionId) (signature : Signature)
  | table (t : HostTable)
  | memory (m : HostMemory)
  | global (g : HostGlobal)
  deriving DecidableEq, Repr

/-- The functions among symbols. -/
def functionsOf (symbols : List (String × Symbol)) : List (String × Signature) :=
  symbols.filterMap fun (name, s) =>
    match s with
    | .function _ signature => some (name, signature)
    | _ => none

/-- The numbers of the functions among symbols. -/
def idsOf (symbols : List (String × Symbol)) : List FunctionId :=
  symbols.filterMap fun (_, s) =>
    match s with
    | .function id _ => some id
    | _ => none

/-- An import object. -/
structure ImportObject where
  moduleName : String
  /-- The symbols in the order they were added; `none` once the object is deleted. -/
  symbols : Option (List (String × Symbol))
  context : Option ContextKey
  environment : Option EnvironmentKey
  deriving DecidableEq, Repr

namespace ImportObject

/-- An object without symbols. -/
def new (moduleName : String) (context : Option ContextKey) : Except LinkError ImportObject :=
  if moduleName.isEmpty then .error .emptyModuleName
  else .ok ⟨moduleName, some [], context, none⟩

/-- An object for the system interface. -/
def wasi (environment : EnvironmentKey) : ImportObject :=
  ⟨Wasi.moduleName, some [], none, some environment⟩

/-- The object is for the system interface. -/
def isWasi (o : ImportObject) : Bool := o.environment.isSome

/-- The object has been deleted. -/
def isDeleted (o : ImportObject) : Bool := o.symbols.isNone

/-- The symbols; none of a deleted object. -/
def symbolList (o : ImportObject) : List (String × Symbol) := o.symbols.getD []

/-- The names of the symbols. -/
def symbolNames (o : ImportObject) : List String := o.symbolList.map Prod.fst

/-- The functions. -/
def functions (o : ImportObject) : List (String × Signature) := functionsOf o.symbolList

/-- The numbers of the functions. -/
def functionIds (o : ImportObject) : List FunctionId := idsOf o.symbolList

/-- A symbol of a name may be added. -/
def checkInsert (o : ImportObject) (name : String) : Except LinkError Unit :=
  match o.symbols with
  | none => .error (.importObjectDeleted o.moduleName)
  | some symbols =>
    if o.isWasi then
      .error (.invalidDefinition "WASI import objects do not accept host symbols")
    else if symbols.any fun s => s.1 = name then
      .error (.duplicateImportName o.moduleName name)
    else .ok ()

/-- Appends a symbol. -/
def push (o : ImportObject) (name : String) (s : Symbol) : ImportObject :=
  { o with symbols := o.symbols.map (· ++ [(name, s)]) }

/-- Adds a symbol that is not a function. -/
def add (o : ImportObject) (name : String) (s : Symbol) : Except LinkError ImportObject := do
  o.checkInsert name
  return o.push name s

/-- Adds a function and registers it. -/
def addFunction (o : ImportObject) (r : Registry) (name : String) (f : HostFunction) :
    Except LinkError (ImportObject × Registry) := do
  o.checkInsert name
  let (id, r) := r.register ⟨f.body, o.context⟩
  return (o.push name (.function id f.signature), r)

/-- Revokes the functions and drops the symbols. -/
def delete (o : ImportObject) (r : Registry) : ImportObject × Registry :=
  ({ o with symbols := none }, r.revokeAll o.functionIds)

/-- The description of an import object. -/
def describe (o : ImportObject) : String :=
  "ImportObject \x7b module: " ++ Text.quote o.moduleName ++ ", symbols: " ++
    Text.quotedList o.symbolNames ++ ", wasi: " ++ toString o.isWasi ++ ", deleted: " ++
    toString o.isDeleted ++ " \x7d"

end ImportObject

end WasmEmbedding.Host
