import WasmEmbedding.Value.Kind

/-! # What can go wrong

One type per layer, a constructor per cause, and one `message` function each. The
outermost type, `RuntimeError`, is what every operation of a virtual machine answers
with; the inner types are also answered bare by the parts that raise them.
-/
namespace WasmEmbedding

/-- A host file that could not be read as asked. -/
inductive FileFault where
  | notFound
  | notADirectory
  | isADirectory
  | permissionDenied
  /-- The content is not text. -/
  | invalidText
  /-- Any other cause, in words. -/
  | other (reason : String)
  deriving DecidableEq, Repr

/-- The wording of a file fault; the system's own causes carry their number. -/
def FileFault.message : FileFault → String
  | .notFound => "No such file or directory (os error 2)"
  | .notADirectory => "Not a directory (os error 20)"
  | .isADirectory => "Is a directory (os error 21)"
  | .permissionDenied => "Permission denied (os error 13)"
  | .invalidText => "stream did not contain valid UTF-8"
  | .other reason => reason

/-- Why bytes or text do not make a module. -/
inductive LoadFault where
  | tooSmall
  | badMagic
  | badVersion
  /-- The section structure is broken; the reader's words follow. -/
  | malformed (diagnostic : String)
  /-- The text format does not parse; the reader's words follow. -/
  | badText (diagnostic : String)
  | unreadable (path : String) (fault : FileFault)
  | other (reason : String)
  deriving DecidableEq, Repr

/-- The wording of a load fault. -/
def LoadFault.message : LoadFault → String
  | .tooSmall => "Invalid Wasm: file too small"
  | .badMagic => "Invalid Wasm: bad magic number"
  | .badVersion => "Invalid Wasm: unsupported version"
  | .malformed d => "Malformed module: " ++ d
  | .badText d => "WAT parsing failed: " ++ d
  | .unreadable path fault => "Failed to read " ++ path ++ ": " ++ fault.message
  | .other reason => reason

/-- Values that do not fit a signature, or no value at all. -/
inductive ValueError where
  /-- The number of values differs from the signature. -/
  | arityMismatch (expected actual : Nat)
  /-- The value at `index` has another kind than the signature declares. -/
  | typeMismatch (index : Nat) (expected actual : ValueKind)
  /-- A type that has no host kind, by its engine name. -/
  | unsupportedType (type : String)
  /-- An external reference whose data the host did not make. -/
  | foreignReference
  deriving DecidableEq, Repr

/-- The wording of a value error. -/
def ValueError.message : ValueError → String
  | .arityMismatch e a => "Arity mismatch: expected " ++ toString e ++ " values, got " ++ toString a
  | .typeMismatch i e a =>
    "Type mismatch at position " ++ toString i ++ ": expected " ++ e.name ++ ", got " ++ a.name
  | .unsupportedType t => "Unsupported value type: " ++ t
  | .foreignReference => "External reference was not created by the host"

/-- What host function bodies fail with. -/
inductive HostFunctionError where
  | failed (reason : String)
  | invalidArgument (reason : String)
  | memoryAccess (reason : String)
  /-- Not a failure: the guest ends, successfully. -/
  | terminate
  deriving DecidableEq, Repr

/-- The wording of a host function error. -/
def HostFunctionError.message : HostFunctionError → String
  | .failed r => "Host function failed: " ++ r
  | .invalidArgument r => "Invalid argument: " ++ r
  | .memoryAccess r => "Memory access failed: " ++ r
  | .terminate => "Execution terminated by host"

/-- Import objects that cannot be built or linked. -/
inductive LinkError where
  | duplicateImportName (moduleName name : String)
  | duplicateModule (moduleName : String)
  | emptyModuleName
  | importObjectDeleted (moduleName : String)
  | invalidDefinition (reason : String)
  /-- The engine refused a symbol; its words are the reason. -/
  | incompatible (moduleName name reason : String)
  deriving DecidableEq, Repr

/-- The wording of a link error. -/
def LinkError.message : LinkError → String
  | .duplicateImportName m n => "Duplicate import name: " ++ m ++ "." ++ n
  | .duplicateModule m => "Module already registered: " ++ m
  | .emptyModuleName => "Module name must not be empty"
  | .importObjectDeleted m => "Import object '" ++ m ++ "' was deleted"
  | .invalidDefinition r => "Invalid definition: " ++ r
  | .incompatible m n r => "Incompatible import " ++ m ++ "." ++ n ++ ": " ++ r

/-- The registry does not know a function. -/
inductive RegistryError where
  /-- The id was never issued, or it has been revoked. -/
  | unknownHostFunction (id : Nat)
  deriving DecidableEq, Repr

/-- The wording of a registry error. -/
def RegistryError.message : RegistryError → String
  | .unknownHostFunction id => "Unknown host function: id " ++ toString id

/-- System interface environments that cannot be set up. -/
inductive WasiError where
  | initializationFailed (reason : String)
  | filesystemError (operation : String)
  | environmentError (reason : String)
  /-- The machine has no built-in system interface. -/
  | notEnabled
  deriving DecidableEq, Repr

/-- The wording of a system interface error. -/
def WasiError.message : WasiError → String
  | .initializationFailed r => "WASI initialization failed: " ++ r
  | .filesystemError op => "WASI filesystem error: " ++ op
  | .environmentError r => "WASI environment error: " ++ r
  | .notEnabled => "WASI is not enabled for this VM"

/-- The causes for which WebAssembly itself stops a guest. -/
inductive TrapCode where
  | unreachable | integerDivisionByZero | integerOverflow | badConversionToInteger
  | memoryOutOfBounds | heapMisaligned | tableOutOfBounds | indirectCallToNull | badSignature
  | stackOverflow | atomicWaitNonSharedMemory
  deriving DecidableEq, Repr

/-- The name of a trap code. -/
def TrapCode.name : TrapCode → String
  | .unreachable => "UnreachableCodeReached"
  | .integerDivisionByZero => "IntegerDivisionByZero"
  | .integerOverflow => "IntegerOverflow"
  | .badConversionToInteger => "BadConversionToInteger"
  | .memoryOutOfBounds => "MemoryOutOfBounds"
  | .heapMisaligned => "HeapMisaligned"
  | .tableOutOfBounds => "TableOutOfBounds"
  | .indirectCallToNull => "IndirectCallToNull"
  | .badSignature => "BadSignature"
  | .stackOverflow => "StackOverflow"
  | .atomicWaitNonSharedMemory => "AtomicWaitNonSharedMemory"

/-- Calls that fail. -/
inductive ExecutionError where
  | notInstantiated
  | functionNotFound (name : String)
  | value (error : ValueError)
  /-- The guest was stopped; the code is missing if not by WebAssembly itself. -/
  | trap (message : String) (code : Option TrapCode)
  | costLimitExceeded
  | hostFunction (error : HostFunctionError)
  deriving DecidableEq, Repr

/-- The wording of an execution error. -/
def ExecutionError.message : ExecutionError → String
  | .notInstantiated => "No module instantiated"
  | .functionNotFound n => "Function not found: " ++ n
  | .value e => e.message
  | .trap m _ => "Wasm trap: " ++ m
  | .costLimitExceeded => "Cost limit exceeded"
  | .hostFunction e => "Host function error: " ++ e.message

/-- What operations of a virtual machine fail with. -/
inductive RuntimeError where
  | load (fault : LoadFault)
  /-- The module breaks the engine's rules; the validator's words follow. -/
  | validation (diagnostic : String)
  | instantiation (reason : String)
  | execution (error : ExecutionError)
  | link (error : LinkError)
  | registry (error : RegistryError)
  | wasi (error : WasiError)
  /-- The operation is not allowed in the machine's state. -/
  | wrongWorkflow (operation state : String)
  | io (reason : String)
  | invalidConfig (reason : String)
  deriving DecidableEq, Repr

namespace RuntimeError

/-- The wording of a runtime error. -/
def message : RuntimeError → String
  | .load f => "Load failed: " ++ f.message
  | .validation d => "Validation failed: " ++ d
  | .instantiation r => "Instantiation failed: " ++ r
  | .execution e => "Execution failed: " ++ e.message
  | .link e => "Link error: " ++ e.message
  | .registry e => "Registry error: " ++ e.message
  | .wasi e => "WASI error: " ++ e.message
  | .wrongWorkflow op state => "Wrong VM workflow: cannot " ++ op ++ " while " ++ state
  | .io r => "IO error: " ++ r
  | .invalidConfig r => "Invalid configuration: " ++ r

/-- The error came from loading. -/
def isLoad : RuntimeError → Bool
  | .load _ => true
  | .io _ => true
  | _ => false

/-- The error came from validating. -/
def isValidation : RuntimeError → Bool
  | .validation _ => true
  | _ => false

/-- The error came from instantiating. -/
def isInstantiation : RuntimeError → Bool
  | .instantiation _ => true
  | _ => false

/-- The error came from calling a function. -/
def isExecution : RuntimeError → Bool
  | .execution _ => true
  | _ => false

/-- The guest was stopped. -/
def isTrap : RuntimeError → Bool
  | .execution (.trap _ _) => true
  | _ => false

end RuntimeError

end WasmEmbedding
