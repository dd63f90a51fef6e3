import WasmEmbedding.Error

/-! # Names of causes

Every error has a name that tells its cause without its details: the names of the
layers that it came through, the outermost first, with dots between them. The details
that are in the engine's own words can be exchanged for others.
-/
namespace WasmEmbedding

/-- The name of a value error. -/
def ValueError.kind : ValueError → String
  | .arityMismatch _ _ => "ArityMismatch"
  | .typeMismatch _ _ _ => "TypeMismatch"
  | .unsupportedType _ => "UnsupportedType"
  | .foreignReference => "ForeignReference"

/-- The name of a host function error. -/
def HostFunctionError.kind : HostFunctionError → String
  | .failed _ => "Failed"
  | .invalidArgument _ => "InvalidArgument"
  | .memoryAccess _ => "MemoryAccess"
  | .terminate => "Terminate"

/-- The name of a link error. -/
def LinkError.kind : LinkError → String
  | .duplicateImportName _ _ => "DuplicateImportName"
  | .duplicateModule _ => "DuplicateModule"
  | .emptyModuleName => "EmptyModuleName"
  | .importObjectDeleted _ => "ImportObjectDeleted"
  | .invalidDefinition _ => "InvalidDefinition"
  | .incompatible _ _ _ => "Incompatible"

/-- The name of a system interface error. -/
def WasiError.kind : WasiError → String
  | .initializationFailed _ => "InitializationFailed"
  | .filesystemError _ => "FilesystemError"
  | .environmentError _ => "EnvironmentError"
  | .notEnabled => "NotEnabled"

/-- The name of a runtime error. -/
def RuntimeError.kind : RuntimeError → String
  | .load _ => "Load"
  | .validation _ => "Validation"
  | .instantiation _ => "Instantiation"
  | .execution .notInstantiated => "Execution.NotInstantiated"
  | .execution (.functionNotFound _) => "Execution.FunctionNotFound"
  | .execution (.value e) => "Execution.Value." ++ e.kind
  | .execution (.trap _ _) => "Execution.Trap"
  | .execution .costLimitExceeded => "Execution.CostLimitExceeded"
  | .execution (.hostFunction e) => "Execution.HostFunction." ++ e.kind
  | .link e => "Link." ++ e.kind
  | .registry (.unknownHostFunction _) => "Registry.UnknownHostFunction"
  | .wasi e => "Wasi." ++ e.kind
  | .wrongWorkflow _ _ => "WrongWorkflow"
  | .io _ => "Io"
  | .invalidConfig _ => "InvalidConfig"

/-- The error with other words in place of the engine's and of parsers. -/
def RuntimeError.reworded (e : RuntimeError) (words : String) : RuntimeError :=
  match e with
  | .load (.malformed _) => .load (.malformed words)
  | .load (.badText _) => .load (.badText words)
  | .validation _ => .validation words
  | .instantiation _ => .instantiation words
  | .execution (.trap _ c) => .execution (.trap words c)
  | .link (.incompatible m n _) => .link (.incompatible m n words)
  | .wasi (.initializationFailed _) => .wasi (.initializationFailed words)
  | e => e

end WasmEmbedding
